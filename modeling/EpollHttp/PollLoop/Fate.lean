import EpollHttp.PollLoop.Change
import EpollHttp.PollLoop.Shutdown

/-
What becomes of every executor in a step of a loop.

Only the executor that `process` is called for may go on with other data or other bytes.  Of all the
others a step keeps everything, or removes the executor, or sets up a new one.
-/

namespace EpollHttp

open Program

section
variable {ans : Answers} {w w1 w' : World} {l r : Nat} {e : Executor} {fd : Int}
variable {curMillis : Int} {event : EpollEvent} {pending : List EpollEvent}

/-! ## Removals -/

theorem removeAll_changes (rs : List Nat) (hnodup : rs.Nodup) (hb : Booked w)
    (huse : ∀ r ∈ rs, w.InUse l r) :
    Ensures (removeAll l rs) w (fun _ w' => Changes w w' ∧ Booked w') := by
  induction rs generalizing w with
  | nil => exact ensures_pure.mpr ⟨.refl hb, hb⟩
  | cons r rest ih =>
    simp only [removeAll, ensures_bind]
    obtain ⟨hnew, hrest⟩ := List.nodup_cons.mp hnodup
    refine (removeExecutorData_changes hb (huse r List.mem_cons_self)).mono (fun _ w1 h1 => ?_)
    obtain ⟨ht, hchanges, _⟩ := h1
    refine (ih hrest ht.booked (fun r' hr' => ?_)).mono (fun _ w2 h2 => ?_)
    · exact (ht.inUse hb l r').mpr ⟨huse r' (List.mem_cons_of_mem _ hr'),
        fun hboth => hnew (hboth.2 ▸ hr')⟩
    · exact ⟨hchanges.trans h2.1, h2.2⟩

theorem checkTimeout_changes (hb : Booked w) :
    Ensures (checkTimeout l curMillis) w (fun _ w' => Changes w w' ∧ Booked w') := by
  simp only [checkTimeout, ensures_bind, ensures_get]
  rw [enumerate_eq hb]
  simp only [ensures_bind, ensures_modifyLoop]
  refine (removeAll_changes _ ((usedItems_nodup (hb.loops l).execs).filter _) hb
    (fun r hr => List.mem_of_mem_filter hr)).mono (fun _ w1 h1 => ?_)
  obtain ⟨hchanges, hb1⟩ := h1
  refine ⟨hchanges.trans (setLoop_changes hb1 rfl rfl (fun _ hd => Or.inl hd)), ?_⟩
  exact hb1.setLoop rfl rfl rfl (fun h => h)

/-! ## New executors -/

/-- Data that adopted a descriptor holds no other one. -/
theorem Adopted.unheld (ha : Adopted w l r fd e w1) (hb : Booked w) (htidy : w.Tidy)
    (hb1 : Booked w1) {place : Place} (hne : place ≠ .fd0) : ∀ id, ¬ w1.HoldsAt l r place id := by
  intro id hid
  have hpos := hb1.holdsAt_positive hid
  have hat := (ha.begins hb htidy).1.places place hne
  unfold World.fdAt at hpos
  omega

theorem Adopted.joined (ha : Adopted w l r fd e w1) (hb : Booked w) (htidy : w.Tidy)
    (hb1 : Booked w1) : w1.Joined l r :=
  fun id hid => absurd hid (ha.unheld hb htidy hb1 (by decide) id)

/-- The data is taken back when `up` failed. -/
theorem adopted_changes (ha : Adopted w l r fd e w1) (hb : Booked w) (htidy : w.Tidy)
    (hl1 : Ledger none w1) (hfd : fd = -1 ∨ (w.kernel.openId? fd ≠ none ∧ w.Unheld fd))
    (hserver : ¬ (e = .request ∨ e = .sslRequest) → fd = -1)
    (hclient : ∀ id, w.kernel.openId? fd = some id → w.kernel.Blank id) :
    Ensures (upCreated e ans l r) w1 (fun result w2 =>
      (result ≠ 0 → Ensures (removeExecutorData l r) w2 (fun _ w' => Changes w w')) ∧
        (¬ result ≠ 0 → Changes w w2)) := by
  obtain ⟨hdid, _, hpoll, hat⟩ := ha.did hb hfd
  have hb1 := hdid.booked
  have H := Handling.start (a := .none) hb1 hdid.inUse (ha.joined hb htidy hb1)
  refine ((upCreated_handled hdid.exec H hpoll (fun hne => hat.trans (hserver hne))).and
    (upCreated_novel ha hb htidy hat ha.kernel hclient)).mono (fun result w2 h2 => ?_)
  obtain ⟨⟨t', H2, _⟩, hnovel⟩ := h2
  have hapart : Apart l r w w2 := (ha.apart hb hb1).trans (H2.apart hl1)
  obtain ⟨h', H2⟩ := H2
  have hcalm : w.kernel.Calm w2.kernel :=
    ha.kernel ▸ H2.flow.calm (ha.unheld hb htidy hb1 (by decide))
  refine ⟨fun _ => ?_, fun hok =>
    hapart.changes (.novel H2.did.inUse (hnovel (not_not.mp hok))) hcalm⟩
  refine (removeExecutorData_changes H2.did.booked H2.did.inUse).mono (fun _ w' hremoved => ?_)
  obtain ⟨ht, hchanges, _⟩ := hremoved
  exact (hapart.trans (hchanges.apart l r)).changes (.gone ht.idle) (hcalm.trans hchanges.calm)

theorem createRequestExecutorInternal_changes {execType : ExecutorType}
    (hl : Ledger (some fd) w) (htidy : w.Tidy) (htype : execType.Requests)
    (hblank : ∀ id, w.kernel.openId? fd = some id → w.kernel.Blank id) :
    Ensures (createRequestExecutorInternal ans l fd execType) w (fun _ w' => Changes w w') := by
  have hb := hl.booked
  rw [createRequestExecutorInternal, ensures_bind]
  refine createExecutorData_spec (fun r w1 hh => ?_)
  rw [ensures_bind, ensures_modifyData, World.setData_self, World.setData_setData, ensures_bind]
  have ha : Adopted w l r fd (PollLoop.getExecutor execType) (w1.setData l r { w1.data l r with
      createTime := ans.milliseconds, lastProcessTime := ans.milliseconds,
      pExecutor := some (PollLoop.getExecutor execType), fd0 := fd }) :=
    ⟨w1, ans.milliseconds, hh, rfl⟩
  refine (adopted_changes ha hb htidy ((ha.deeds hb).ledger hl) (Or.inr hl.openInHand)
    (fun hne => absurd ?_ hne) hblank).mono (fun result w2 h2 => ?_)
  · rcases htype with rfl | rfl
    · exact Or.inl rfl
    · exact Or.inr rfl
  · simp only [ensures_ite, ensures_bind, ensures_pure]
    exact h2

theorem listenPort_changes {execType : ExecutorType} (hl : Ledger none w) (htidy : w.Tidy) :
    Ensures (listenPort ans l execType) w (fun _ w' => Changes w w') := by
  have hb := hl.booked
  rw [listenPort, ensures_bind]
  refine createExecutorData_spec (fun r w1 hh => ?_)
  rw [ensures_bind, ensures_modifyData, World.setData_self, World.setData_setData, ensures_bind]
  have hfd0 : (w1.data l r).fd0 = -1 :=
    (hh.fdAt hb l r .fd0).trans ((hb.loops l).idle r (hh.spec hb).1 .fd0).1
  have ha : Adopted w l r (-1) (PollLoop.getExecutor execType) (w1.setData l r { w1.data l r with
      createTime := ans.milliseconds, lastProcessTime := ans.milliseconds,
      pExecutor := some (PollLoop.getExecutor execType) }) := by
    refine ⟨w1, ans.milliseconds, hh, ?_⟩
    rw [← hfd0]
  refine (adopted_changes ha hb htidy ((ha.deeds_none hb).ledger hl) (Or.inl rfl)
    (fun _ => rfl) (fun id hid => ?_)).mono (fun result w2 h2 => ?_)
  · rw [hb.openId?_never (by decide)] at hid
    cases hid
  · rw [ensures_when]
    exact h2

/-- A connection that was accepted is set up, queued or closed. -/
theorem createRequestExecutor_changes {execType : ExecutorType} (hl : Ledger (some fd) w)
    (htidy : w.Tidy) (htype : execType.Requests)
    (hblank : ∀ id, w.kernel.openId? fd = some id → w.kernel.Blank id) :
    Ensures (createRequestExecutor ans l fd execType) w (fun _ w' => Changes w w') := by
  have hunheld := hl.openInHand.2
  simp only [createRequestExecutor, ensures_bind, ensures_get, ensures_ite]
  refine ⟨fun _ => createRequestExecutorInternal_changes hl htidy htype hblank, fun _ => ?_⟩
  simp only [serverCreateRequestExecutor, enqueueClientFd, ensures_bind, ensures_get,
    ensures_getLoop, ensures_ite, ensures_modifyLoop, ensures_pure, ensures_close]
  refine ⟨fun _ => ⟨fun _ => closed_changes hl.booked hunheld, fun hne => absurd (by decide) hne⟩,
    fun _ => ⟨fun hne => absurd rfl hne, fun _ => ?_⟩⟩
  refine setLoop_changes hl.booked rfl rfl (fun d hd => ?_)
  rcases List.mem_append.mp hd with hold | hnew
  · exact Or.inl hold
  · obtain rfl := List.mem_singleton.mp hnew
    exact Or.inr hblank

theorem serverProcess_changes {execType : ExecutorType} {events : Int} (hl : Ledger none w)
    (htidy : w.Tidy) (htype : execType.Requests) :
    Ensures (serverProcess execType ans l r events) w (fun _ w' => Changes w w') := by
  simp only [serverProcess, ensures_bind, ensures_getData, ensures_ite, ensures_pure]
  refine ⟨fun _ => .refl hl.booked, fun _ => newDescriptor_spec.mono (fun fd w1 hnew => ?_)⟩
  rcases hnew with ⟨rfl, rfl⟩ | ⟨rfl, havail, rfl⟩
  · exact ⟨fun _ => .refl hl.booked, fun hne => absurd rfl hne⟩
  · have h1 := opened_changes hl havail true
    refine ⟨fun _ => h1, fun _ => ?_⟩
    refine (createRequestExecutor_changes (hl.opened havail) (h1.tidy htidy) htype ?_).mono
      (fun _ w2 h2 => h1.trans h2)
    intro id hid
    rw [World.setKernel_kernel, Kernel.openId?_opened_self] at hid
    rw [← Option.some.inj hid]
    exact Kernel.opened_blank ans.accept4 true

/-! ## The beginning of a loop -/

theorem createEventFd_changes (hl : Ledger none w) (htidy : w.Tidy) :
    Ensures (createEventFd ans l) w (fun _ w' => Changes w w') := by
  rw [createEventFd, ensures_bind]
  refine newDescriptor_spec.mono (fun fd w1 hnew => ?_)
  rw [ensures_bind, ensures_modifyLoop, ensures_ite, ensures_pure]
  rcases hnew with ⟨rfl, rfl⟩ | ⟨rfl, havail, rfl⟩
  · exact ⟨fun _ => setLoop_changes hl.booked rfl rfl (fun _ hd => Or.inl hd),
      fun hpos => absurd (by decide) hpos⟩
  have hl1 : Ledger (some ans.eventfd) ((w.setKernel (w.kernel.opened ans.eventfd false)).setLoop l
      { (w.setKernel (w.kernel.opened ans.eventfd false)).loops l with eventFd := ans.eventfd }) :=
    Deeds.ledger ((Deed.opened _ false havail).deeds.next
      (.assigned _ ans.eventfd (w.loops l).lastCheckTimeoutMillis)) hl
  have h1 : Changes w ((w.setKernel (w.kernel.opened ans.eventfd false)).setLoop l
      { (w.setKernel (w.kernel.opened ans.eventfd false)).loops l with
        eventFd := ans.eventfd }) :=
    (opened_changes hl havail false).trans (setLoop_changes (hl.booked.openedKernel havail) rfl rfl
      (fun _ hd => Or.inl hd))
  generalize (w.setKernel (w.kernel.opened ans.eventfd false)).setLoop l
    { (w.setKernel (w.kernel.opened ans.eventfd false)).loops l with
      eventFd := ans.eventfd } = w1 at hl1 h1
  have htidy1 := h1.tidy htidy
  refine ⟨fun _ => h1, fun _ => ?_⟩
  rw [ensures_bind]
  refine createExecutorData_spec (fun r w2 hh => ?_)
  rw [ensures_bind, ensures_modifyData, World.setData_self, World.setData_setData, ensures_bind]
  have ha : Adopted w1 l r ans.eventfd .newFd (w2.setData l r { w2.data l r with
      createTime := ans.milliseconds, lastProcessTime := ans.milliseconds,
      pExecutor := some .newFd, fd0 := ans.eventfd }) := ⟨w2, ans.milliseconds, hh, rfl⟩
  have hdid := (ha.did hl1.booked (Or.inr hl1.openInHand)).1
  have hl2 := (ha.deeds hl1.booked).ledger hl1
  have hbegins := (ha.begins hl1.booked htidy1).1
  have h2 := (h1.apart l r).trans (ha.apart hl1.booked hdid.booked)
  have hjoined := ha.joined hl1.booked htidy1 hdid.booked
  have hkernel := ha.kernel
  have hpipe := ha.unheld hl1.booked htidy1 hdid.booked (show Place.pipeRead ≠ .fd0 by decide)
  generalize w2.setData l r { w2.data l r with
    createTime := ans.milliseconds, lastProcessTime := ans.milliseconds,
    pExecutor := some .newFd, fd0 := ans.eventfd } = w3 at hdid hl2 hbegins h2 hjoined hkernel hpipe
  have H3 := Handling.start (a := .none) hdid.booked hdid.inUse hjoined
  refine ((handling_addPollFd w3 H3).and addPollFd_unwatched).mono (fun added w4 h4 => ?_)
  obtain ⟨H4, hdata4, _⟩ := h4
  have hapart := h2.trans (H4.handled.apart hl2)
  have hcalm : w.kernel.Calm w4.kernel := h1.calm.trans (hkernel ▸ H4.flow.calm hpipe)
  rw [ensures_ite, ensures_bind, ensures_bind, ensures_modifyData, ensures_pure]
  refine ⟨fun _ => ?_, fun _ => ?_⟩
  · refine (removeExecutorData_changes H4.did.booked H4.did.inUse).mono (fun _ w5 h5 => ?_)
    rw [ensures_pure]
    exact (hapart.trans (h5.2.1.apart l r)).changes (.gone h5.1.idle) (hcalm.trans h5.2.1.calm)
  · have hbooked := (H4.did.data (d := { w4.data l r with removeOnTimeout := false, state := .ok })
      ⟨fun _ => rfl, fun _ => rfl⟩ rfl)
    refine (hapart.trans (setData_apart H4.did.booked hbooked.booked)).changes
      (.novel hbooked.inUse (.service .newFd (Or.inl rfl) ?_ ?_)) hcalm
    · rw [World.setData_self]
      exact (hbegins.congr hdata4).listens (w4.data l r).fd0
    · rw [World.setData_self]

theorem init_changes (hw : Steady w) (htidy : w.Tidy) (hphase : (w.loops l).phase = .created) :
    Ensures (init ans l) w (fun _ w' => Changes w w') := by
  obtain ⟨_, hepoll⟩ := hw.fresh l (by rw [hphase]; exact fun hstarted => hstarted)
  have hl0 : Ledger none (w.nameRoot l) := (nameRoot_deed hw hphase).ledger hw.ledger
  have h0 : Changes w (w.nameRoot l) :=
    setLoop_changes hw.ledger.booked rfl rfl (fun _ hd => Or.inl hd)
  have hepoll0 : ((w.nameRoot l).loops l).epollFd = -1 := by
    rw [World.nameRoot, World.setLoop_self]
    exact hepoll
  rw [init, ensures_bind, ensures_get, ensures_bind, ensures_modifyLoop, ensures_bind]
  change Ensures _ (w.nameRoot l) _
  generalize w.nameRoot l = w0 at hl0 h0 hepoll0
  have hdestroy : ∀ w1, Ledger none w1 → Changes w w1 →
      Ensures (destroy l) w1 (fun _ w' => Changes w w') := by
    intro w1 hl1 h1
    exact (destroy_changes hl1 (h1.tidy htidy)).mono (fun _ _ h2 => h1.trans h2)
  refine newDescriptor_spec.mono (fun fd w1 hnew => ?_)
  rw [ensures_bind, ensures_modifyLoop, ensures_ite]
  rcases hnew with ⟨rfl, rfl⟩ | ⟨rfl, havail, rfl⟩
  · refine ⟨fun _ => ?_, fun hne => absurd rfl hne⟩
    have hsame : w1.setLoop l { w1.loops l with epollFd := -1 } = w1 := by
      rw [← hepoll0]
      exact World.setLoop_eq w1 l
    rw [hsame]
    exact hdestroy w1 hl0 h0
  · have hl1 := ((Deed.opened (l := l) ans.epollCreate false havail).deeds.next
      (.epollFd ans.epollCreate (fun id hid => ?_))).ledger hl0
    · have h1 : Changes w ((w0.setKernel (w0.kernel.opened ans.epollCreate false)).setLoop l
          { (w0.setKernel (w0.kernel.opened ans.epollCreate false)).loops l with
            epollFd := ans.epollCreate }) :=
        (h0.trans (opened_changes hl0 havail false)).trans
          (setLoop_changes (hl0.booked.openedKernel havail) rfl rfl (fun _ hd => Or.inl hd))
      refine ⟨fun heq => ?_, fun _ => ?_⟩
      · have hpos := havail.1
        omega
      · rw [ensures_bind]
        refine ((createEventFd_changes hl1 (h1.tidy htidy)).and (createEventFd_deeds hl1)).mono
          (fun created w2 h2 => ?_)
        obtain ⟨hcreated, hdeeds⟩ := h2
        have hl2 := hdeeds.ledger hl1
        rw [ensures_ite]
        exact ⟨fun _ => hdestroy w2 hl2 (h1.trans hcreated), fun _ =>
          (setPhase_changes hl2.booked).mono (fun _ _ h3 => (h1.trans hcreated).trans h3)⟩
    · rw [World.setKernel_kernel, Kernel.openId?_opened_self] at hid
      rw [← Option.some.inj hid]
      exact Function.update_self ..

/-! ## Turns -/

/-- The time of the last call is written down. -/
def World.stamped (w : World) (l r : Nat) (curMillis : Int) : World :=
  w.setData l r { w.data l r with lastProcessTime := curMillis }

/-- The executor that was called is removed, or lives on with the time of the call. -/
inductive Ended (l r : Nat) (result : ProcessResult) (w w' : World) : Prop
  | removed (hidle : (w'.data l r).Idle)
  | stamped (curMillis : Int) (hok : result = .ok) (huse : w.InUse l r)
      (hretries : ¬ ExecutorData.MAX_RETRY_COUNTER < (w.data l r).retryCounter)
      (h : Retained l r (w.stamped l r curMillis) w')

theorem Booked.stamped (hb : Booked w) : Booked (w.stamped l r curMillis) :=
  hb.setData ⟨fun _ => rfl, fun _ => rfl⟩ ((hb.loops l).alone r)

theorem finishProcess_changes {result : ProcessResult} (hl : Ledger none w) (huse : w.InUse l r)
    (htidy : w.Tidy) : Ensures (finishProcess l r curMillis pending result) w (fun _ w' =>
      Apart l r w w' ∧ Ended l r result w w' ∧ w.kernel.OnlyClosed w'.kernel) := by
  have hremove : Ensures (removeExecutorData l r) w (fun _ w1 =>
      Ensures (setPhase l (.draining curMillis pending)) w1 (fun _ w' =>
        Apart l r w w' ∧ Ended l r result w w' ∧ w.kernel.OnlyClosed w'.kernel)) := by
    refine (removeExecutorData_changes hl.booked huse).mono (fun _ w1 h1 => ?_)
    obtain ⟨ht, hchanges, hk⟩ := h1
    refine (setPhase_kept ht.booked).mono (fun _ w2 h2 => ?_)
    obtain ⟨hphase, hkept, hkernel⟩ := h2
    refine ⟨(hchanges.trans hphase).apart l r, .removed ?_, ?_⟩
    · rw [(hkept l r).undisturbed.data]
      exact ht.idle
    · rw [hkernel]
      exact hk
  cases result with
  | removeExecutorOk =>
    simp only [finishProcess, ensures_bind]
    exact hremove
  | removeExecutorError =>
    simp only [finishProcess, ensures_bind]
    exact hremove
  | shutdown =>
    refine ((destroy_spec hl.booked hl.kernel hl.looseEpoll).and
      (onlyClosed_destroy w (.refl w.kernel))).mono (fun _ w1 h1 => ?_)
    refine ⟨(h1.1.changes hl htidy h1.2).apart l r, .removed ?_, h1.2⟩
    rcases h1.1.data r with hcleared | ⟨hidle, _⟩
    · rw [hcleared]
      exact cleared_cleared _
    · exact absurd huse hidle
  | ok =>
    simp only [finishProcess, ensures_bind, ensures_getData, ensures_ite, ensures_modifyData]
    refine ⟨fun _ => hremove, fun hretries => ?_⟩
    have hb1 : Booked (w.stamped l r curMillis) := hl.booked.stamped
    refine (setPhase_kept hb1).mono (fun _ w2 h2 => ?_)
    obtain ⟨hphase, hkept, hkernel⟩ := h2
    refine ⟨(setData_apart hl.booked hb1).trans (hphase.apart l r),
      .stamped curMillis rfl huse hretries (hkept l r), ?_⟩
    rw [hkernel]
    exact .refl w.kernel

theorem endRound_changes (hb : Booked w) :
    Ensures (endRound l curMillis) w (fun _ w' => Changes w w') := by
  simp only [endRound, ensures_bind, ensures_get, ensures_ite]
  refine ⟨fun _ => (checkTimeout_changes hb).mono (fun _ w1 h1 => ?_), fun _ => setPhase_changes hb⟩
  exact (setPhase_changes h1.2).mono (fun _ _ h2 => h1.1.trans h2)

/-! ## Calls -/

/-- The executor that a step calls. -/
def Action.target (a : Action) (w : World) : Option (Nat × Nat) :=
  match a with
  | .continue l _ =>
    match (w.loops l).phase with
    | .draining _ (event :: _) =>
      match w.delivery l event with
      | .processed r _ => some (l, r)
      | _ => none
    | .checkingNewFd r _ _ => some (l, r)
    | _ => none
  | _ => none

/-- What a step makes of an executor. -/
inductive Fate (a : Action) (l r : Nat) (w w' : World) : Prop
  | change (h : Change l r w w')
  /-- A client is served. -/
  | served (e : Executor) (ans : Answers) (fd : Int) (events : Nat) (result : ProcessResult)
      (w1 : World) (htarget : a.target w = some (l, r)) (he : (w.data l r).pExecutor = some e)
      (hserves : e.Serves) (hpos : 0 < fd)
      (hrun : e.process ans l r fd events w = some (result, w1)) (h : Ended l r result w1 w')
      (hk : w1.kernel.OnlyClosed w'.kernel)
  /-- Connections are accepted or taken from the queue. -/
  | admitted (w1 : World) (htarget : a.target w = some (l, r)) (h1 : Change l r w w1)
      (hb1 : Booked w1) (h : Ended l r .ok w1 w')

/-- The bytes that a step moves go through what the executor it calls holds. -/
def Moves (a : Action) (w w' : World) : Prop :=
  w.kernel.Calm w'.kernel ∨ ∃ l r e, a.target w = some (l, r) ∧
    (w.data l r).pExecutor = some e ∧ e.Serves ∧ Flow e.access l r w w'.kernel

structure Fates (a : Action) (w w' : World) : Prop where
  each : ∀ l r, Fate a l r w w'
  blank : w.QueueBlank → w'.QueueBlank
  moves : Moves a w w'
  others : ∀ l r, a.target w ≠ some (l, r) → Change l r w w'

theorem Changes.fates {a : Action} (h : Changes w w') : Fates a w w' :=
  ⟨fun l r => .change (h.each l r), h.blank, Or.inl h.calm, fun l r _ => h.each l r⟩

theorem Apart.fates {a : Action} (h : Apart l r w w') (htarget : a.target w = some (l, r))
    (hself : Fate a l r w w') (hmoves : Moves a w w') : Fates a w w' := by
  refine ⟨fun l' r' => ?_, h.blank, hmoves, fun l' r' hne => h.each l' r' ?_⟩
  · by_cases hsame : l' = l ∧ r' = r
    · rw [hsame.1, hsame.2]
      exact hself
    · exact .change (h.each l' r' hsame)
  · rintro ⟨rfl, rfl⟩
    exact hne htarget

theorem Apart.tidy (h : Apart l r w w') (htidy : w.Tidy) (huse : w'.InUse l r) : w'.Tidy := by
  intro l' r' hidle
  have hne : ¬ (l' = l ∧ r' = r) := fun hsame => hidle (by rw [hsame.1, hsame.2]; exact huse)
  exact (h.each l' r' hne).idle (htidy l' r') hidle

theorem Fate.ofEnded {a : Action} {result : ProcessResult} (htarget : a.target w = some (l, r))
    (h1 : Change l r w w1) (hb1 : Booked w1) (h : Ended l r result w1 w') : Fate a l r w w' := by
  cases h with
  | removed hidle => exact .change (.gone hidle)
  | stamped curMillis hok huse hretries hkept =>
    exact .admitted w1 htarget h1 hb1 (.stamped curMillis rfl huse hretries hkept)

/-- The thread calls `process` for one entry. -/
theorem drain_fates (hw : Steady w) (htidy : w.Tidy) (hjoined : ∀ l r, w.Joined l r)
    (hphase : (w.loops l).phase = .draining curMillis (event :: pending)) :
    Ensures (drain ans l curMillis event pending) w (fun _ w' =>
      Fates (.continue l ans) w w') := by
  have hl := hw.ledger
  have hb := hl.booked
  have hlive : (w.loops l).phase.Live := by
    rw [hphase]
    trivial
  rw [drain, ensures_bind, ensures_get]
  cases hdel : w.delivery l event with
  | skipped => exact (setPhase_changes hb).mono (fun _ _ h => h.fates)
  | removed r =>
    obtain ⟨_, place, hslot, _⟩ := hb.points hlive (delivery_removed hdel)
    rw [ensures_bind]
    refine (removeExecutorData_changes hb (hb.inUse hslot)).mono (fun _ w1 h1 => ?_)
    obtain ⟨ht, hchanges, _⟩ := h1
    exact (setPhase_changes ht.booked).mono (fun _ _ h2 => (hchanges.trans h2).fates)
  | processed r fd =>
    obtain ⟨hexec, hfd⟩ := delivery_processed hdel
    obtain ⟨_, place, hslot, hpoint⟩ := hb.points hlive hexec
    have huse := hb.inUse hslot
    have hpos : 0 < fd := by
      rw [← hfd, hpoint]
      exact hb.watched_positive hslot
    have htarget : (Action.continue l ans).target w = some (l, r) := by
      simp only [Action.target, hphase, hdel]
    dsimp only
    cases he : (w.data l r).pExecutor with
    | none => exact ensures_fail.mpr trivial
    | some e =>
      -- A class that accepts connections.
      have hadmits : ∀ {m : Prog ProcessResult}, Ensures m w (fun _ w1 => Changes w w1) →
          Ensures m w (fun _ w1 => Ledger none w1 ∧ w1.InUse l r) →
          Ensures (do
            let result ← m
            finishProcess l r curMillis pending result) w (fun _ w' =>
              Fates (.continue l ans) w w') := by
        intro m hchanges hledger
        rw [ensures_bind]
        refine (hchanges.and hledger).mono (fun result w1 h1 => ?_)
        obtain ⟨hchanges1, hl1, huse1⟩ := h1
        refine (finishProcess_changes hl1 huse1 (hchanges1.tidy htidy)).mono (fun _ w2 h2 => ?_)
        obtain ⟨hapart, hended, hk⟩ := h2
        exact ((hchanges1.apart l r).trans hapart).fates htarget
          (.ofEnded htarget (hchanges1.each l r) hl1.booked hended)
          (Or.inl (hchanges1.calm.trans hk.calm))
      have hdone : Ensures (e.process ans l r fd event.events) w (fun _ w1 =>
          Ledger none w1 ∧ w1.InUse l r) :=
        (process_spec hb huse he).mono (fun _ _ hp =>
          ⟨(hp.deeds hb).ledger hl, (hp.booked hb).2 l r huse⟩)
      have hserved : e.Serves → Ensures (do
          let result ← e.process ans l r fd event.events
          finishProcess l r curMillis pending result) w (fun _ w' =>
            Fates (.continue l ans) w w') := by
        intro hserves
        have H := Handling.start (a := e.access) hb huse (hjoined l r)
        rw [ensures_bind]
        intro result w1 hrun
        obtain ⟨t', H1, _⟩ := process_handled hserves he H result w1 hrun
        obtain ⟨hl1, huse1⟩ := hdone result w1 hrun
        have hapart := H1.apart hl
        refine (finishProcess_changes hl1 huse1 (hapart.tidy htidy huse1)).mono (fun _ w2 h2 => ?_)
        obtain ⟨hfinished, hended, hk⟩ := h2
        obtain ⟨_, H1⟩ := H1
        exact (hapart.trans hfinished).fates htarget
          (.served e ans fd event.events result w1 htarget he hserves hpos hrun hended hk)
          (Or.inr ⟨l, r, e, htarget, he, hserves, H1.flow.onlyClosed hk⟩)
      cases e with
      | newFd =>
        simp only [startCheckNewFd, ensures_ite]
        exact ⟨fun _ => (setPhase_changes hb).mono (fun _ _ h => h.fates),
          fun _ => (destroy_changes hl htidy).mono (fun _ _ h => h.fates)⟩
      | server => exact hadmits (serverProcess_changes hl htidy (Or.inl rfl)) hdone
      | sslServer => exact hadmits (serverProcess_changes hl htidy (Or.inr rfl)) hdone
      | request => exact hserved trivial
      | sslRequest => exact hserved trivial
      | file => exact hserved trivial
      | sslFile => exact hserved trivial
      | proxySplice => exact hserved trivial
      | proxyReadWrite => exact hserved trivial
      | sslProxy => exact hserved trivial

theorem checkNewFd_fates (hw : Steady w) (htidy : w.Tidy) (hblank : w.QueueBlank)
    (hphase : (w.loops l).phase = .checkingNewFd r curMillis pending) :
    Ensures (checkNewFd ans l r curMillis pending) w (fun _ w' =>
      Fates (.continue l ans) w w') := by
  have hl := hw.ledger
  have huse : w.InUse l r := hw.checking l r (by rw [hphase]; rfl)
  have htarget : (Action.continue l ans).target w = some (l, r) := by
    simp only [Action.target, hphase]
  rw [checkNewFd, ensures_bind, ensures_getLoop]
  cases hqueue : (w.loops l).newFdsQueue with
  | nil =>
    refine (finishProcess_changes hl huse htidy).mono (fun _ w1 h1 => ?_)
    obtain ⟨hapart, hended, hk⟩ := h1
    exact hapart.fates htarget (.ofEnded htarget (.kept (.refl hl.booked)) hl.booked hended)
      (Or.inl hk.calm)
  | cons d rest =>
    dsimp only
    rw [ensures_bind, ensures_modifyLoop, ensures_bind]
    have hin : d ∈ (w.loops l).newFdsQueue := by
      rw [hqueue]
      exact List.mem_cons_self
    obtain ⟨hl1, htype⟩ := firstQueued_taken hl hqueue
    have h1 : Changes w (w.setLoop l { w.loops l with newFdsQueue := rest }) := by
      refine setLoop_changes hl.booked rfl rfl (fun d' hd' => Or.inl ?_)
      rw [hqueue]
      exact List.mem_cons_of_mem d hd'
    refine ((createRequestExecutorInternal_changes hl1 (h1.tidy htidy) htype
      (hblank l d hin)).and (firstQueued_deeds hl hqueue)).mono (fun result w2 h2 => ?_)
    have hchanges := h1.trans h2.1
    rw [ensures_when]
    refine ⟨fun _ => ?_, fun _ => hchanges.fates⟩
    exact (setPhase_changes (h2.2.1.ledger hl).booked).mono (fun _ _ h3 =>
      (hchanges.trans h3).fates)

/-- A `close` that is answered with `EBADF`. -/
theorem closedAgain_changes (hb : Booked w) (hclosed : w.kernel.openId? fd = none) :
    Changes w (w.setKernel (w.kernel.close fd)) ∧
      Booked (w.setKernel (w.kernel.close fd)) := by
  obtain ⟨htable, _, _, hepoll, _⟩ := Kernel.close_refused hclosed
  have hopen : ∀ fd', (w.kernel.close fd).openId? fd' = w.kernel.openId? fd' :=
    Kernel.openId?_congr htable
  have hk := Kernel.OnlyClosed.close w.kernel fd
  refine ⟨⟨fun l' r' => .kept (.ofClosed hb ⟨rfl, fun place p hp => ?_, fun _ _ _ => ?_,
    fun _ _ => hopen _⟩ Iff.rfl hk), fun hblank => hblank.closed (fun _ => rfl) hk, hk.calm⟩, ?_⟩
  · exact ⟨((hb.loops l').slot r' place p hp).1, rfl⟩
  · rw [World.setKernel_kernel, hepoll]
  · exact hb.setKernel (fun fd' hfd' => by rw [hopen]; exact hfd')
      (fun fd' _ hnever => by rw [htable]; exact hnever) (fun l' fd' => by rw [hepoll])

theorem continueLoop_fates (hw : Steady w) (htidy : w.Tidy) (hjoined : ∀ l r, w.Joined l r)
    (hblank : w.QueueBlank)
    (hspares : ∀ fd ∈ (Action.continue l ans).closesAgain w, w.kernel.openId? fd = none) :
    Ensures (continueLoop ans l) w (fun _ w' => Fates (.continue l ans) w w') := by
  have hb := hw.ledger.booked
  rw [continueLoop, ensures_bind, ensures_getLoop]
  cases hphase : (w.loops l).phase with
  | draining curMillis pending =>
    cases pending with
    | nil => exact (endRound_changes hb).mono (fun _ _ h => h.fates)
    | cons event pending => exact drain_fates hw htidy hjoined hphase
  | checkingNewFd r curMillis pending => exact checkNewFd_fates hw htidy hblank hphase
  | closingAgain fd next =>
    have hclosed : w.kernel.openId? fd = none := by
      refine hspares fd ?_
      simp only [Action.closesAgain, hphase]
      rfl
    obtain ⟨h1, hb1⟩ := closedAgain_changes hb hclosed
    rw [ensures_bind, ensures_close]
    exact (setPhase_changes hb1).mono (fun _ _ h2 => (h1.trans h2).fates)
  | _ => exact ensures_fail.mpr trivial

/-! ## Steps -/

/-- What holds between the steps. -/
structure Orderly (w : World) : Prop where
  steady : Steady w
  tidy : w.Tidy
  joined : ∀ l r, w.Joined l r
  blank : w.QueueBlank

variable {a : Action}

theorem step_perform_fates (ho : Orderly w)
    (hspares : ∀ fd ∈ a.closesAgain w, w.kernel.openId? fd = none) :
    Ensures a.perform w (fun _ w' => Fates a w w') := by
  have hl := ho.steady.ledger
  cases a with
  | init l ans =>
    simp only [Action.perform, ensures_bind, ensures_get]
    cases hphase : (w.loops l).phase with
    | created =>
      rw [ensures_ite]
      exact ⟨fun _ => (init_changes ho.steady ho.tidy hphase).mono (fun _ _ h => h.fates),
        fun _ => ensures_fail.mpr trivial⟩
    | _ => exact ensures_fail.mpr trivial
  | listenPort l execType ans =>
    simp only [Action.perform, ensures_bind, ensures_getLoop]
    cases hphase : (w.loops l).phase with
    | waiting => exact (listenPort_changes hl ho.tidy).mono (fun _ _ h => h.fates)
    | _ => exact ensures_fail.mpr trivial
  | epollWait l ready curMillis =>
    simp only [Action.perform, ensures_bind, ensures_getLoop]
    cases hphase : (w.loops l).phase with
    | waiting =>
      simp only [waitForEvents, ensures_bind, ensures_get]
      cases w.batch l ready with
      | none => exact ensures_fail.mpr trivial
      | some batch => exact (setPhase_changes hl.booked).mono (fun _ _ h => h.fates)
    | _ => exact ensures_fail.mpr trivial
  | stop l =>
    simp only [Action.perform, ensures_bind, ensures_getLoop]
    cases hphase : (w.loops l).phase with
    | waiting => exact (destroy_changes hl ho.tidy).mono (fun _ _ h => h.fates)
    | _ => exact ensures_fail.mpr trivial
  | «continue» l ans => exact continueLoop_fates ho.steady ho.tidy ho.joined ho.blank hspares

/-- No pipe is held. -/
theorem World.joined_of_unheld (hb : Booked w) (hneg : ¬ 0 < w.fdAt l r .pipeWrite) :
    w.Joined l r := fun _ hid => absurd (hb.holdsAt_positive hid) hneg

theorem ExecutorData.Idle.fdAt (h : (w.data l r).Idle) (place : Place) :
    ¬ 0 < w.fdAt l r place := by
  unfold World.fdAt
  rw [← h]
  cases place with
  | _ =>
    simp only [ExecutorData.fdAt, ExecutorData.cleared]
    split <;> omega

theorem ExecutorData.Idle.exec {d : ExecutorData} (h : d.Idle) : d.pExecutor = none := by
  rw [← h]
  rfl

theorem Orderly.inUse (ho : Orderly w) (he : (w.data l r).pExecutor = some e) : w.InUse l r := by
  by_contra hidle
  rw [(ho.tidy l r hidle).exec] at he
  cases he

theorem World.stamped_inUse (hb : Booked w) :
    (w.stamped l r curMillis).InUse l r ↔ w.InUse l r :=
  inUse_setData (fun l => (hb.loops l).execs) l r

theorem World.stamped_fdAt (place : Place) :
    (w.stamped l r curMillis).fdAt l r place = w.fdAt l r place := by
  unfold World.stamped
  rw [World.setData_fdAt, if_pos ⟨rfl, rfl⟩]
  cases place <;> rfl

theorem World.stamped_joined (h : w.Joined l r) : (w.stamped l r curMillis).Joined l r := by
  intro id hid
  unfold World.HoldsAt at hid ⊢
  rw [World.stamped_fdAt] at hid ⊢
  exact h id hid

theorem Ended.idle {result : ProcessResult} (h : Ended l r result w w') (hidle : ¬ w'.InUse l r)
    (hb : Booked w) : (w'.data l r).Idle := by
  cases h with
  | removed hgone => exact hgone
  | stamped curMillis hok huse hretries hkept =>
    exact absurd (hkept.inUse.mpr ((World.stamped_inUse hb).mpr huse)) hidle

theorem Change.joined (h : Change l r w w') (hb' : Booked w') (hjoined : w.Joined l r) :
    w'.Joined l r := by
  have hnone : w'.fdAt l r .pipeWrite = -1 → w'.Joined l r := fun hat =>
    World.joined_of_unheld hb' (by rw [hat]; decide)
  cases h with
  | kept hkept => exact hkept.joined hjoined
  | gone hidle => exact World.joined_of_unheld hb' (hidle.fdAt .pipeWrite)
  | novel huse hnovel =>
    cases hnovel with
    | request hbegins _ _ => exact hnone (hbegins.places .pipeWrite (by decide))
    | sslRequest hbegins _ _ => exact hnone (hbegins.places .pipeWrite (by decide))
    | service e he hbegins hstays => exact hnone (hbegins.places .pipeWrite (by decide))

theorem Ended.joined {result : ProcessResult} (h : Ended l r result w w') (hb' : Booked w')
    (hjoined : w.Joined l r) : w'.Joined l r := by
  cases h with
  | removed hidle => exact World.joined_of_unheld hb' (hidle.fdAt .pipeWrite)
  | stamped curMillis hok huse hretries hkept =>
    exact hkept.joined (World.stamped_joined hjoined)

theorem Orderly.handled {events : Nat} {result : ProcessResult} (ho : Orderly w)
    (he : (w.data l r).pExecutor = some e) (hserves : e.Serves)
    (hrun : e.process ans l r fd events w = some (result, w1)) :
    HandledNext e.access l r w (w.data l r).terms w1 :=
  process_handled hserves he
    (Handling.start ho.steady.ledger.booked (ho.inUse he) (ho.joined l r)) result w1 hrun

theorem Fate.tidy (h : Fate a l r w w') (ho : Orderly w) (hidle : ¬ w'.InUse l r) :
    (w'.data l r).Idle := by
  cases h with
  | change h => exact h.idle (ho.tidy l r) hidle
  | served e ans fd events result w1 htarget he hserves hpos hrun h hk =>
    obtain ⟨_, ⟨_, H⟩, _⟩ := ho.handled he hserves hrun
    exact h.idle hidle H.did.booked
  | admitted w1 htarget h1 hb1 h => exact h.idle hidle hb1

theorem Fate.joined (h : Fate a l r w w') (ho : Orderly w) (hb' : Booked w') :
    w'.Joined l r := by
  cases h with
  | change h => exact h.joined hb' (ho.joined l r)
  | served e ans fd events result w1 htarget he hserves hpos hrun h hk =>
    obtain ⟨_, ⟨_, H⟩, _⟩ := ho.handled he hserves hrun
    exact h.joined hb' H.joined
  | admitted w1 htarget h1 hb1 h => exact h.joined hb' (h1.joined hb1 (ho.joined l r))

/-- A step that closes nothing that is open for a second time. -/
theorem step_fates (ho : Orderly w) (hstep : Run.guard SparesOpen World.step w a = some w') :
    Orderly w' ∧ Fates a w w' ∧ w'.parameters = w.parameters := by
  have hsteady := step_steady ho.steady hstep
  obtain ⟨hspares, hstep⟩ := Run.guard_some hstep
  have hfates : Fates a w w' := by
    obtain ⟨⟨_, w1⟩, hrun, rfl⟩ := Option.map_eq_some_iff.mp hstep
    exact step_perform_fates ho hspares _ _ hrun
  obtain ⟨l, hturn⟩ := step_turn ho.steady hstep
  have hparameters : w'.parameters = w.parameters := by
    rcases hturn with ht | ⟨fd, _, _, _, rfl⟩
    · exact ht.parameters
    · rfl
  have hb' := hsteady.ledger.booked
  exact ⟨⟨hsteady, fun l r hidle => (hfates.each l r).tidy ho hidle,
    fun l r => (hfates.each l r).joined ho hb', hfates.blank ho.blank⟩, hfates, hparameters⟩

theorem orderly_start (parameters : ServerParameters) : Orderly { parameters := parameters } := by
  have hsteady := steady_start parameters
  refine ⟨hsteady, fun _ _ _ => rfl, fun l r => World.joined_of_unheld hsteady.ledger.booked ?_,
    fun l d hd => ?_⟩
  · have hat : ({ parameters := parameters } : World).fdAt l r .pipeWrite = -1 := rfl
    rw [hat]
    decide
  · cases hd

theorem run_orderly {parameters : ServerParameters} {actions : List Action}
    (hrun : Run.run (Run.guard SparesOpen World.step) { parameters := parameters } actions =
      some w) : Orderly w ∧ w.parameters = parameters := by
  refine Run.run_invariant (P := fun w => Orderly w ∧ w.parameters = parameters) ?_
    ⟨orderly_start parameters, rfl⟩ hrun
  rintro w a w' ⟨ho, hw⟩ hstep
  obtain ⟨ho', _, hparameters⟩ := step_fates ho hstep
  exact ⟨ho', hparameters.trans hw⟩

end

/-! ## Isolation -/

/-- The steps of the run and the next one all meet `SparesOpen`.  Whatever step comes after whatever
such run: of an executor that the step does not call everything is kept, unless it is removed or
new, and bytes are moved only through what the called executor holds, where its class reads and
writes. -/
theorem run_isolated {parameters : ServerParameters} {actions : List Action} {w w' : World}
    {a : Action}
    (hrun : Run.run (Run.guard SparesOpen World.step) { parameters := parameters } actions =
      some w)
    (hstep : Run.guard SparesOpen World.step w a = some w') :
    (∀ l r, a.target w ≠ some (l, r) → Change l r w w') ∧ Moves a w w' := by
  obtain ⟨_, hfates, _⟩ := step_fates (run_orderly hrun).1 hstep
  exact ⟨hfates.others, hfates.moves⟩

/-- Two clients are connected, and the first one sent something. -/
def twoClients : List Action :=
  [.init 0 { epollCreate := 3, eventfd := 4 },
    .listenPort 0 .server { socket := 5 },
    .epollWait 0 [(5, EPOLLIN)] 0,
    .continue 0 { accept4 := 6 },
    .continue 0 {},
    .epollWait 0 [(5, EPOLLIN)] 0,
    .continue 0 { accept4 := 7 },
    .continue 0 {},
    .epollWait 0 [(6, EPOLLIN)] 0]

theorem run_isolated_twoClients : ∃ w w',
    Run.run (Run.guard SparesOpen World.step) { parameters := { rootFolder := [47] } } twoClients =
        some w ∧
      Run.guard SparesOpen World.step w (.continue 0 { read := { bytes := some [71] } }) =
        some w' ∧
      Change 0 3 w w' ∧ Moves (.continue 0 { read := { bytes := some [71] } }) w w' := by
  have hrun : ((Run.run (Run.guard SparesOpen World.step) { parameters := { rootFolder := [47] } }
      twoClients).map (fun w =>
        ((Action.continue 0 { read := { bytes := some [71] } }).target w,
          (Run.guard SparesOpen World.step w
            (.continue 0 { read := { bytes := some [71] } })).isSome))) =
        some (some (0, 2), true) := by
    decide +kernel
  obtain ⟨w, hw, hnext⟩ := Option.map_eq_some_iff.mp hrun
  obtain ⟨htarget, hsome⟩ := Prod.mk.inj hnext
  obtain ⟨w', hw'⟩ := Option.isSome_iff_exists.mp hsome
  obtain ⟨hothers, hmoves⟩ := run_isolated hw hw'
  refine ⟨w, w', hw, hw', hothers 0 3 ?_, hmoves⟩
  rw [htarget]
  decide

end EpollHttp
