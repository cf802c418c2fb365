import EpollHttp.PollLoop.Deeds

/-
The calls of a loop, as chains of deeds.
-/

namespace EpollHttp

open Program

section
variable {ans : Answers} {w w' : World} {l r : Nat} {fd : Int} {e : Executor} {hand : Option Int}

theorem Did.deeds {x : Option Executor} (h : Did l r x w w') : Deeds l w hand hand w' :=
  h.effects.deeds

/-- The data is new before it adopts a descriptor. -/
theorem HandedOut.empty (hb : Booked w) (hh : HandedOut w l r w') (place : Place) :
    w'.fdAt l r place = -1 ∧ w'.pollDataAt l r place = none := by
  have hidle := (hb.loops l).idle r (hh.spec hb).1
  refine ⟨(hh.fdAt hb l r place).trans (hidle place).1, ?_⟩
  unfold World.pollDataAt
  rcases (hh.spec hb).2.2 r with heq | ⟨_, heq⟩
  · rw [heq]
    exact (hidle place).2
  · rw [heq]
    cases place <;> rfl

/-- The data is set up for its executor. -/
theorem HandedOut.deeds (hb : Booked w) (hh : HandedOut w l r w') (hand : Option Int)
    (millis : Int) (e : Executor) : Deeds l w hand hand (w'.setData l r { w'.data l r with
      createTime := millis, lastProcessTime := millis, pExecutor := some e }) := by
  refine (Deed.handedOut hand r w' hh).deeds.next (.effect hand r _ (.data _
    ⟨fun _ => rfl, fun _ => rfl⟩ (Or.inr (fun _ => ?_))))
  exact ⟨(hh.empty hb .fd1).1, (hh.empty hb .fd1).2⟩

theorem Adopted.deeds (hb : Booked w) (ha : Adopted w l r fd e w') :
    Deeds l w (some fd) none w' := by
  obtain ⟨w1, millis, hh, rfl⟩ := ha
  have huse : w1.InUse l r := ((hh.spec hb).2.1 r).mpr (Or.inl rfl)
  have hadopt := (hh.deeds hb (some fd) millis e).next (.adopted r fd ?_ ?_ ?_)
  · rw [World.setData_self, World.setData_setData] at hadopt
    exact hadopt
  · exact (inUse_setData (fun l => ((hb.handedOut hh).loops l).execs) l r).mpr huse
  · rw [World.setData_pollDataAt, if_pos ⟨rfl, rfl⟩]
    exact (hh.empty hb .fd0).2
  · rw [World.setData_fdAt, if_pos ⟨rfl, rfl⟩]
    exact (hh.empty hb .fd0).1

/-- The data starts without a descriptor. -/
theorem Adopted.deeds_none (hb : Booked w) (ha : Adopted w l r (-1) e w') :
    Deeds l w hand hand w' := by
  obtain ⟨w1, millis, hh, rfl⟩ := ha
  have hfd0 : (w1.data l r).fd0 = -1 := (hh.empty hb .fd0).1
  have hdeeds := hh.deeds hb hand millis e
  rw [← hfd0]
  exact hdeeds

theorem TakenBack.deeds (hb : Booked w) (ht : TakenBack l r w w') : Deeds l w hand hand w' := by
  obtain ⟨_, w1, hdid, hdata, rfl⟩ := ht
  refine hdid.deeds.next (.freed hand r hdid.inUse (fun place => ?_))
  unfold World.fdAt World.pollDataAt
  rw [hdata]
  exact (w.data l r).cleared_holding (hb.value l r) place

theorem Created.deeds {result : Int} (hc : Created w l fd e result w')
    (hstart : ∀ r w1, Adopted w l r fd e w1 → Deeds l w hand none w1) :
    Deeds l w hand none w' := by
  obtain ⟨_, r, w1, w2, ha, h1, h2, hend⟩ := hc
  have hup := (hstart r w1 ha).trans h2.deeds
  rcases hend with ⟨_, rfl⟩ | ⟨_, ht⟩
  · exact hup
  · exact hup.trans (ht.deeds h2.booked)

theorem Placed.deeds {execType : ExecutorType} (htype : execType.Requests) (hb : Booked w)
    (hp : Placed l fd execType w w') : Deeds l w (some fd) none w' := by
  cases hp with
  | created result w' hone h => exact h.deeds (fun r w1 ha => ha.deeds hb)
  | queued i => exact (Deed.queued i fd execType htype).deeds
  | closed => exact (Deed.closed fd).deeds

theorem Processed.deeds (hb : Booked w) (hp : Processed l r e w w') : Deeds l w none none w' := by
  cases hp with
  | did x w' h => exact h.deeds
  | accepted c execType w' he havail h =>
    have htype : execType.Requests := by
      rcases he with ⟨_, rfl⟩ | ⟨_, rfl⟩
      · exact Or.inl rfl
      · exact Or.inr rfl
    exact (Deed.opened c true havail).deeds.trans (h.deeds htype (hb.openedKernel havail))

/-! ## Timeouts -/

/-- Everything that is in use is found in its list. -/
theorem enumerate_eq (hb : Booked w) :
    (w.loops l).execDatas.enumerate (blockSize * (w.loops l).execDatas.blocks.length) =
      some ((w.loops l).execDatas.usedItems blockSize) := by
  have hs := (hb.loops l).execs
  have hle := hs.length_le.1
  have hlength : ((w.loops l).execDatas.allItems blockSize).length =
      blockSize * (w.loops l).execDatas.blocks.length := by
    simp [BlockStorage.allItems, Nat.mul_comm]
  rw [hlength] at hle
  exact Links.walk_chain hs.usedChain hle

theorem removeAll_spec (rs : List Nat) (hnodup : rs.Nodup) (hl : Ledger none w)
    (huse : ∀ r ∈ rs, w.InUse l r) :
    Ensures (removeAll l rs) w (fun _ w' => Deeds l w none none w' ∧
      ∀ r, w.InUse l r → r ∉ rs → w'.InUse l r) := by
  induction rs generalizing w with
  | nil => exact ensures_pure.mpr ⟨.done w none, fun _ h _ => h⟩
  | cons r rest ih =>
    simp only [removeAll, ensures_bind]
    refine (removeExecutorData_spec hl.booked (huse r List.mem_cons_self)).mono (fun _ w1 ht => ?_)
    have hd : Deeds l w none none w1 := ht.deeds hl.booked
    have hin := ht.inUse hl.booked l
    obtain ⟨hnew, hrest⟩ := List.nodup_cons.mp hnodup
    refine (ih hrest (hd.ledger hl) (fun r' hr' => ?_)).mono (fun _ w2 h2 => ?_)
    · refine (hin r').mpr ⟨huse r' (List.mem_cons_of_mem _ hr'), fun hboth => ?_⟩
      exact hnew (hboth.2 ▸ hr')
    · refine ⟨hd.trans h2.1, fun r' huse' hr' => ?_⟩
      refine h2.2 r' ((hin r').mpr ⟨huse', fun hboth => ?_⟩)
        (fun hin' => hr' (List.mem_cons_of_mem _ hin'))
      exact hr' (hboth.2 ▸ List.mem_cons_self)

theorem checkTimeout_deeds {curMillis : Int} (hl : Ledger none w) :
    Ensures (checkTimeout l curMillis) w (fun _ w' => Deeds l w none none w') := by
  simp only [checkTimeout, ensures_bind, ensures_get]
  rw [enumerate_eq hl.booked]
  simp only [ensures_bind, ensures_modifyLoop]
  refine (removeAll_spec _ ((usedItems_nodup (hl.booked.loops l).execs).filter _) hl
    (fun r hr => List.mem_of_mem_filter hr)).mono (fun _ w1 h1 => ?_)
  exact h1.1.next (.assigned none (w1.loops l).eventFd curMillis)

theorem World.setLoop_eq (w : World) (l : Nat) : w.setLoop l (w.loops l) = w := by
  unfold World.setLoop
  rw [Function.update_eq_self]

/-! ## The beginning of a loop -/

theorem createEventFd_deeds (hl : Ledger none w) :
    Ensures (createEventFd ans l) w (fun _ w' => Deeds l w none none w') := by
  -- The steps behind the descriptor, which is held by new data.
  have hrest : ∀ (fd : Int) (w1 : World), ¬ fd < 0 → Ledger (some fd) w1 →
      Deeds l w none (some fd) w1 → Ensures (do
        let r ← createExecutorData ans l
        modifyData l r (fun d => { d with fd0 := fd, pExecutor := some .newFd })
        let added ← addPollFd ans l r fd EPOLLIN
        if added ≠ 0 then do
          removeExecutorData l r
          return (-1 : Int)
        else do
          modifyData l r (fun d => { d with removeOnTimeout := false, state := .ok })
          return 0) w1 (fun _ w' => Deeds l w none none w') := by
    intro fd w1 hfd hl1 hd1
    rw [ensures_bind]
    refine createExecutorData_spec (fun r w2 hh => ?_)
    rw [ensures_bind, ensures_modifyData, World.setData_self, World.setData_setData, ensures_bind]
    have ha : Adopted w1 l r fd .newFd (w2.setData l r { w2.data l r with
        createTime := ans.milliseconds, lastProcessTime := ans.milliseconds,
        pExecutor := some .newFd, fd0 := fd }) := ⟨w2, ans.milliseconds, hh, rfl⟩
    have hdid := (ha.did hl1.booked (Or.inr hl1.openInHand)).1
    have hd2 := hd1.trans (ha.deeds hl1.booked)
    generalize w2.setData l r { w2.data l r with
      createTime := ans.milliseconds, lastProcessTime := ans.milliseconds,
      pExecutor := some .newFd, fd0 := fd } = w3 at hdid hd2
    refine (did_addPollFd w3 hdid).mono (fun added w4 h4 => ?_)
    rw [ensures_ite, ensures_bind, ensures_bind, ensures_modifyData, ensures_pure]
    refine ⟨fun _ => ?_, fun _ => ?_⟩
    · refine (removeExecutorData_spec h4.booked h4.inUse).mono (fun _ w5 ht => ?_)
      rw [ensures_pure]
      exact (hd2.trans h4.deeds).trans (ht.deeds h4.booked)
    · exact (hd2.trans h4.deeds).next
        (.effect none r _ (.data _ ⟨fun _ => rfl, fun _ => rfl⟩ (Or.inl rfl)))
  rw [createEventFd, ensures_bind]
  refine newDescriptor_spec.mono (fun fd w1 hnew => ?_)
  rw [ensures_bind, ensures_modifyLoop, ensures_ite, ensures_pure]
  rcases hnew with ⟨rfl, rfl⟩ | ⟨rfl, havail, rfl⟩
  · refine ⟨fun _ => ?_, fun hpos => absurd (by decide) hpos⟩
    exact (Deed.assigned none (-1) (w1.loops l).lastCheckTimeoutMillis).deeds
  · have hd1 : Deeds l w none (some ans.eventfd) _ := (Deed.opened _ false havail).deeds.next
      (.assigned _ ans.eventfd (w.loops l).lastCheckTimeoutMillis)
    refine ⟨fun hneg => ?_, fun hpos => hrest _ _ hpos (hd1.ledger hl) hd1⟩
    have hpos := havail.1
    omega

/-! ## Turns -/

/-- The entries that were not looked at. -/
def Phase.pending : Phase → List EpollEvent
  | .draining _ pending => pending
  | .checkingNewFd _ _ pending => pending
  | .closingAgain _ next => next.pending
  | _ => []

/-- `init` was called. -/
def Phase.Started : Phase → Prop
  | .created => False
  | .closingAgain _ next => next.Started
  | _ => True

/-- `checkNewFd` was called for the executor `r`. -/
def Phase.Checks (r : Nat) : Phase → Prop
  | .checkingNewFd r' _ _ => r' = r
  | .closingAgain _ next => next.Checks r
  | _ => False

end

/-- The entry is what the epoll set has for a descriptor. -/
def World.Reports (w : World) (l : Nat) (event : EpollEvent) : Prop :=
  ∃ fd events, w.report l fd events = some event

/-- What the thread of the loop `l` does until another thread may come between. -/
inductive Turn (l : Nat) (w : World) : World → Prop
  | stayed (w' : World) (hd : Deeds l w none none w') (hstarted : (w.loops l).phase.Started)
      (huse : ∀ r, (w.loops l).phase.Checks r → w'.InUse l r) : Turn l w w'
  | moved (w1 : World) (phase : Phase) (hd : Deeds l w none none w1)
      (hlive : phase.Live → (w.loops l).phase.Live) (hstarted : phase.Started)
      (huse : ∀ r, phase.Checks r → w1.InUse l r)
      (hpending : ∀ event ∈ phase.pending,
        event ∈ (w.loops l).phase.pending ∨ w1.Reports l event) :
      Turn l w (w1.setLoop l { w1.loops l with phase := phase })
  | destroyed (w1 w' : World) (hd : Deeds l w none none w1) (h : Destroyed w1 l w') : Turn l w w'

section
variable {ans : Answers} {w w1 w' : World} {l r : Nat} {fd : Int} {e : Executor}
variable {curMillis : Int} {pending : List EpollEvent}

theorem Ledger.looseEpoll (h : Ledger none w) (hpos : 0 < (w.loops l).epollFd) :
    ∃ id, w.Loose (w.loops l).epollFd id := by
  obtain ⟨_, id, hl, _⟩ := h.epoll l hpos
  exact ⟨id, hl⟩

theorem destroy_turn (h : Ledger none w) (hd : Deeds l w none none w1) :
    Ensures (destroy l) w1 (fun _ w' => Turn l w w') := by
  have h1 := hd.ledger h
  exact (destroy_spec h1.booked h1.kernel h1.looseEpoll).mono (fun _ w' hw =>
    .destroyed w1 w' hd hw)

/-- The thread goes on with the entries. -/
theorem drain_on (hphase : (w.loops l).phase.Live)
    (hpending : ∀ event ∈ pending, event ∈ (w.loops l).phase.pending)
    (hd : Deeds l w none none w1) :
    Turn l w (w1.setLoop l { w1.loops l with phase := .draining curMillis pending }) :=
  .moved w1 _ hd (fun _ => hphase) trivial (fun _ hr => hr.elim)
    (fun event hin => Or.inl (hpending event hin))

theorem finishProcess_turn {result : ProcessResult} (h : Ledger none w)
    (hphase : (w.loops l).phase.Live)
    (hpending : ∀ event ∈ pending, event ∈ (w.loops l).phase.pending)
    (hd : Deeds l w none none w1) (huse : w1.InUse l r) :
    Ensures (finishProcess l r curMillis pending result) w1 (fun _ w' => Turn l w w') := by
  have h1 := hd.ledger h
  have hremove : Ensures (removeExecutorData l r) w1 (fun _ w2 =>
      Turn l w (w2.setLoop l { w2.loops l with phase := .draining curMillis pending })) :=
    (removeExecutorData_spec h1.booked huse).mono (fun _ w2 ht =>
      drain_on hphase hpending (hd.trans (ht.deeds h1.booked)))
  cases result with
  | removeExecutorOk =>
    simp only [finishProcess, setPhase, ensures_bind, ensures_modifyLoop]
    exact hremove
  | removeExecutorError =>
    simp only [finishProcess, setPhase, ensures_bind, ensures_modifyLoop]
    exact hremove
  | shutdown => exact destroy_turn h hd
  | ok =>
    simp only [finishProcess, setPhase, ensures_bind, ensures_getData, ensures_ite,
      ensures_modifyLoop, ensures_modifyData]
    refine ⟨fun _ => hremove, fun _ => drain_on hphase hpending (hd.next ?_)⟩
    exact .effect none r _ (.data _ ⟨fun _ => rfl, fun _ => rfl⟩ (Or.inl rfl))

end

/-- What holds in front of every turn. -/
structure Steady (w : World) : Prop where
  ledger : Ledger none w
  fresh : ∀ l, ¬ (w.loops l).phase.Started → w.usedPolls l = [] ∧ (w.loops l).epollFd = -1
  checking : ∀ l r, (w.loops l).phase.Checks r → w.InUse l r

section
variable {ans : Answers} {w w1 w' : World} {l r : Nat} {fd : Int} {e : Executor}
variable {curMillis : Int} {event : EpollEvent} {pending : List EpollEvent}

theorem Turn.ledger (ht : Turn l w w') (h : Ledger none w) : Ledger none w' := by
  cases ht with
  | stayed w' hd hstarted huse => exact hd.ledger h
  | moved w1 phase hd hlive hstarted huse hpending =>
    exact (hd.ledger h).assigned rfl rfl rfl rfl rfl (fun hl => by rw [hd.phase]; exact hlive hl)
  | destroyed w1 w' hd hw => exact (hd.ledger h).destroyed hw

theorem Turn.closedOnce (ht : Turn l w w') (h : Ledger none w) (hk : w.kernel.ClosedOnce) :
    w'.kernel.ClosedOnce := by
  cases ht with
  | stayed w' hd hstarted huse => exact hd.closedOnce h hk
  | moved w1 phase hd hlive hstarted huse hpending => exact hd.closedOnce h hk
  | destroyed w1 w' hd hw => exact hw.closedOnce (hd.ledger h) (hd.closedOnce h hk)

theorem Turn.parameters (ht : Turn l w w') : w'.parameters = w.parameters := by
  cases ht with
  | stayed w' hd hstarted huse => exact hd.parameters
  | moved w1 phase hd hlive hstarted huse hpending => exact hd.parameters
  | destroyed w1 w' hd hw => exact hw.parameters.trans hd.parameters

/-- The other loops stand where they stood. -/
theorem Turn.others (ht : Turn l w w') {l' : Nat} (hl : l' ≠ l) : w.SameButQueue w' l' := by
  cases ht with
  | stayed w' hd hstarted huse => exact hd.others hl
  | moved w1 phase hd hlive hstarted huse hpending =>
    obtain ⟨queue, heq⟩ := hd.others hl
    exact ⟨queue, (World.setLoop_other _ _ hl _).trans heq⟩
  | destroyed w1 w' hd hw =>
    obtain ⟨queue, heq⟩ := hd.others hl
    exact ⟨queue, (hw.others l' hl).trans heq⟩

theorem Turn.steady (ht : Turn l w w') (h : Steady w) : Steady w' := by
  -- The loop itself: it is no longer new, and what it checks for is in use.
  have hself : (w'.loops l).phase.Started ∧
      ∀ r, (w'.loops l).phase.Checks r → w'.InUse l r := by
    cases ht with
    | stayed w' hd hstarted huse =>
      rw [hd.phase]
      exact ⟨hstarted, huse⟩
    | moved w1 phase hd hlive hstarted huse hpending =>
      unfold World.InUse
      rw [World.setLoop_self]
      exact ⟨hstarted, huse⟩
    | destroyed w1 w' hd hw =>
      obtain ⟨execDatas, hloop⟩ := hw.loop
      rw [hloop]
      dsimp only
      split
      · exact ⟨trivial, fun _ hr => hr.elim⟩
      · exact ⟨trivial, fun _ hr => hr.elim⟩
  have hother : ∀ l', l' ≠ l → w.SameButQueue w' l' := fun l' hl => ht.others hl
  refine ⟨ht.ledger h.ledger, fun l' hphase => ?_, fun l' r hr => ?_⟩
  · by_cases hl : l' = l
    · rw [hl] at hphase
      exact absurd hself.1 hphase
    · obtain ⟨queue, heq⟩ := hother l' hl
      unfold World.usedPolls
      rw [heq] at hphase ⊢
      exact h.fresh l' hphase
  · by_cases hl : l' = l
    · rw [hl] at hr ⊢
      exact hself.2 r hr
    · obtain ⟨queue, heq⟩ := hother l' hl
      unfold World.InUse
      rw [heq] at hr ⊢
      exact h.checking l' r hr

/-! ## Every step is a turn -/

/-- An item that points to an executor belongs to it. -/
theorem Booked.points (hb : Booked w) (hlive : (w.loops l).phase.Live) {p : Nat}
    (h : (w.pollData l p).execData = some r) : p ∈ w.usedPolls l ∧
      ∃ place, w.pollDataAt l r place = some p ∧ (w.pollData l p).fd = w.fdAt l r place := by
  have hin : p ∈ w.usedPolls l := by
    by_contra hfree
    rw [(hb.loops l).free hlive p hfree] at h
    cases h
  obtain ⟨r', place, hslot⟩ := (hb.loops l).item p hin
  obtain ⟨_, hd, _⟩ := (hb.loops l).slot r' place p hslot
  rw [hd] at h ⊢
  obtain rfl : r' = r := Option.some.inj h
  exact ⟨hin, place, hslot, rfl⟩

theorem delivery_removed (h : w.delivery l event = .removed r) :
    (w.pollData l event.ptr).execData = some r := by
  unfold World.delivery at h
  dsimp only at h
  split at h
  · cases h
  · rename_i r' hr'
    split at h
    · cases h
    · split at h
      · rw [hr', Delivery.removed.inj h]
      · cases h

theorem delivery_processed (h : w.delivery l event = .processed r fd) :
    (w.pollData l event.ptr).execData = some r ∧ (w.pollData l event.ptr).fd = fd := by
  unfold World.delivery at h
  dsimp only at h
  split at h
  · cases h
  · rename_i r' hr'
    split at h
    · cases h
    · split at h
      · cases h
      · rw [hr', (Delivery.processed.inj h).1]
        exact ⟨rfl, (Delivery.processed.inj h).2⟩

/-- The thread looks at one entry. -/
theorem drain_turn (h : Steady w)
    (hphase : (w.loops l).phase = .draining curMillis (event :: pending)) :
    Ensures (drain ans l curMillis event pending) w (fun _ w' => Turn l w w') := by
  have hb := h.ledger.booked
  have hlive : (w.loops l).phase.Live := by
    rw [hphase]
    trivial
  have hpending : ∀ e ∈ pending, e ∈ (w.loops l).phase.pending := by
    rw [hphase]
    exact fun e he => List.mem_cons_of_mem _ he
  have huse : ∀ r, (w.pollData l event.ptr).execData = some r → w.InUse l r := by
    intro r hr
    obtain ⟨_, place, hslot, _⟩ := hb.points hlive hr
    exact hb.inUse hslot
  rw [drain, ensures_bind, ensures_get]
  cases hdel : w.delivery l event with
  | skipped =>
    simp only [setPhase, ensures_modifyLoop]
    exact drain_on hlive hpending (.done w none)
  | removed r =>
    simp only [setPhase, ensures_bind, ensures_modifyLoop]
    exact (removeExecutorData_spec hb (huse r (delivery_removed hdel))).mono
      (fun _ w1 ht => drain_on hlive hpending (ht.deeds hb))
  | processed r fd =>
    have hr := huse r (delivery_processed hdel).1
    dsimp only
    cases he : (w.data l r).pExecutor with
    | none => exact ensures_fail.mpr trivial
    | some e =>
      have hprocess : ∀ ans', Ensures (do
          let result ← e.process ans' l r fd event.events
          finishProcess l r curMillis pending result) w (fun _ w' => Turn l w w') := by
        intro ans'
        rw [ensures_bind]
        refine (process_spec hb hr he).mono (fun result w1 hp => ?_)
        exact finishProcess_turn h.ledger hlive hpending (hp.deeds hb) ((hp.booked hb).2 l r hr)
      cases e with
      | newFd =>
        simp only [startCheckNewFd, setPhase, ensures_ite, ensures_modifyLoop]
        refine ⟨fun _ => ?_, fun _ => destroy_turn h.ledger (.done w none)⟩
        exact .moved w _ (.done w none) (fun _ => hlive) trivial
          (fun r' hr' => hr' ▸ hr) (fun e he => Or.inl (hpending e he))
      | server => exact hprocess ans
      | sslServer => exact hprocess ans
      | request => exact hprocess ans
      | sslRequest => exact hprocess ans
      | file => exact hprocess ans
      | sslFile => exact hprocess ans
      | proxySplice => exact hprocess ans
      | proxyReadWrite => exact hprocess ans
      | sslProxy => exact hprocess ans

/-- The first descriptor of the queue is taken out. -/
theorem firstQueued_taken {d : NewFdData} {rest : List NewFdData} (h : Ledger none w)
    (hqueue : (w.loops l).newFdsQueue = d :: rest) :
    Ledger (some d.fd) (w.setLoop l { w.loops l with newFdsQueue := rest }) ∧
      d.execType.Requests := by
  have hin : d ∈ (w.loops l).newFdsQueue := by
    rw [hqueue]
    exact List.mem_cons_self
  exact ⟨(Deed.dequeued d rest hqueue).ledger h, h.queue.requests l d hin⟩

theorem firstQueued_created {d : NewFdData} {rest : List NewFdData} (h : Ledger none w)
    (hqueue : (w.loops l).newFdsQueue = d :: rest) :
    Ensures (createRequestExecutorInternal ans l d.fd d.execType)
      (w.setLoop l { w.loops l with newFdsQueue := rest })
      (fun result w' => Created (w.setLoop l { w.loops l with newFdsQueue := rest }) l d.fd
        (PollLoop.getExecutor d.execType) result w') := by
  obtain ⟨hl1, htype⟩ := firstQueued_taken h hqueue
  obtain ⟨hopen, hunheld⟩ := hl1.openInHand
  exact createRequestExecutorInternal_spec hl1.booked htype hopen hunheld

/-- The first descriptor of the queue becomes a connection. -/
theorem firstQueued_deeds {d : NewFdData} {rest : List NewFdData} (h : Ledger none w)
    (hqueue : (w.loops l).newFdsQueue = d :: rest) :
    Ensures (createRequestExecutorInternal ans l d.fd d.execType)
      (w.setLoop l { w.loops l with newFdsQueue := rest })
      (fun _ w' => Deeds l w none none w' ∧ ∀ r, w.InUse l r → w'.InUse l r) := by
  have hd1 : Deeds l w none (some d.fd)
      (w.setLoop l { w.loops l with newFdsQueue := rest }) := (Deed.dequeued d rest hqueue).deeds
  have hl1 := hd1.ledger h
  have huse : ∀ r, w.InUse l r →
      (w.setLoop l { w.loops l with newFdsQueue := rest }).InUse l r := by
    intro r hr
    unfold World.InUse
    rw [World.setLoop_self]
    exact hr
  refine (firstQueued_created h hqueue).mono (fun result w2 hc =>
    ⟨?_, fun r hr => hc.inUse hl1.booked (huse r hr)⟩)
  exact hd1.trans (hc.deeds (fun r' w' ha => ha.deeds hl1.booked))

theorem checkNewFd_turn (h : Steady w)
    (hphase : (w.loops l).phase = .checkingNewFd r curMillis pending) :
    Ensures (checkNewFd ans l r curMillis pending) w (fun _ w' => Turn l w w') := by
  have hlive : (w.loops l).phase.Live := by
    rw [hphase]
    trivial
  have hpending : ∀ e ∈ pending, e ∈ (w.loops l).phase.pending := by
    rw [hphase]
    exact fun e he => he
  have hr : w.InUse l r := h.checking l r (by rw [hphase]; rfl)
  rw [checkNewFd, ensures_bind, ensures_getLoop]
  cases hqueue : (w.loops l).newFdsQueue with
  | nil => exact finishProcess_turn h.ledger hlive hpending (.done w none) hr
  | cons d rest =>
    dsimp only
    rw [ensures_bind, ensures_modifyLoop, ensures_bind]
    refine (firstQueued_deeds h.ledger hqueue).mono (fun result w2 h2 => ?_)
    obtain ⟨hd2, huse2⟩ := h2
    simp only [setPhase, ensures_when, ensures_modifyLoop]
    refine ⟨fun _ => ?_, fun _ => ?_⟩
    · exact .moved w2 _ hd2 (fun _ => hlive) trivial
        (fun r' hr' => (show r = r' from hr') ▸ huse2 r hr)
        (fun e he => Or.inl (hpending e he))
    · refine .stayed w2 hd2 ?_ (fun r' hr' => ?_)
      · rw [hphase]
        trivial
      · rw [hphase] at hr'
        exact (show r = r' from hr') ▸ huse2 r hr

theorem endRound_turn (h : Steady w) (hphase : (w.loops l).phase = .draining curMillis []) :
    Ensures (endRound l curMillis) w (fun _ w' => Turn l w w') := by
  have hlive : (w.loops l).phase.Live := by
    rw [hphase]
    trivial
  have hwait : ∀ w1, Deeds l w none none w1 →
      Turn l w (w1.setLoop l { w1.loops l with phase := .waiting }) := fun w1 hd =>
    .moved w1 _ hd (fun _ => hlive) trivial (fun _ hr => hr.elim)
      (fun _ hin => nomatch hin)
  simp only [endRound, setPhase, ensures_bind, ensures_get, ensures_ite, ensures_modifyLoop]
  exact ⟨fun _ => (checkTimeout_deeds h.ledger).mono (fun _ w1 hd => hwait w1 hd),
    fun _ => hwait w (.done w none)⟩

/-- What `init` starts with. -/
def World.nameRoot (w : World) (l : Nat) : World :=
  w.setLoop l { w.loops l with
    numOfPollFds := 0
    fileNameBuffer := printRootFolder w.parameters.rootFolder
    rootFolderLength := (CString.cString (printRootFolder w.parameters.rootFolder)).length }

/-- `init` names the root folder before it does anything else. -/
structure Begun (l : Nat) (w w' : World) : Prop where
  deeds : ∃ w1, Deeds l (w.nameRoot l) none none w1 ∧
    (w' = w1.setLoop l { w1.loops l with phase := .waiting } ∨ Destroyed w1 l w')

theorem nameRoot_deed (h : Steady w) (hphase : (w.loops l).phase = .created) :
    Deed l w none none (w.nameRoot l) := by
  obtain ⟨hused, _⟩ := h.fresh l (by rw [hphase]; exact fun hstarted => hstarted)
  refine .rooted ?_
  rw [(h.ledger.booked.loops l).count (by rw [hphase]; trivial), hused]
  rfl

theorem init_begun (h : Steady w) (hphase : (w.loops l).phase = .created) :
    Ensures (init ans l) w (fun _ w' => Begun l w w') := by
  obtain ⟨_, hepoll⟩ := h.fresh l (by rw [hphase]; exact fun hstarted => hstarted)
  have hl0 : Ledger none (w.nameRoot l) := (nameRoot_deed h hphase).ledger h.ledger
  have hepoll0 : ((w.nameRoot l).loops l).epollFd = -1 := by
    rw [World.nameRoot, World.setLoop_self]
    exact hepoll
  have hdestroy : ∀ w1, Deeds l (w.nameRoot l) none none w1 →
      Ensures (destroy l) w1 (fun _ w' => Begun l w w') := by
    intro w1 hd
    have h1 := hd.ledger hl0
    exact (destroy_spec h1.booked h1.kernel h1.looseEpoll).mono
      (fun _ w' hw => ⟨w1, hd, Or.inr hw⟩)
  rw [init, ensures_bind, ensures_get, ensures_bind, ensures_modifyLoop, ensures_bind]
  change Ensures _ (w.nameRoot l) _
  generalize hw0 : w.nameRoot l = w0 at hl0 hepoll0 hdestroy
  have hbegun : ∀ w1, Deeds l w0 none none w1 →
      Begun l w (w1.setLoop l { w1.loops l with phase := .waiting }) :=
    fun w1 hd => ⟨w1, hw0 ▸ hd, Or.inl rfl⟩
  refine newDescriptor_spec.mono (fun fd w1 hnew => ?_)
  rw [ensures_bind, ensures_modifyLoop, ensures_ite]
  rcases hnew with ⟨rfl, rfl⟩ | ⟨rfl, havail, rfl⟩
  · refine ⟨fun _ => ?_, fun hne => absurd rfl hne⟩
    have hsame : w1.setLoop l { w1.loops l with epollFd := -1 } = w1 := by
      rw [← hepoll0]
      exact World.setLoop_eq w1 l
    rw [hsame]
    exact hdestroy w1 (.done w1 none)
  · have hd1 := (Deed.opened (l := l) ans.epollCreate false havail).deeds.next
      (.epollFd ans.epollCreate ?_)
    · refine ⟨fun heq => ?_, fun _ => ?_⟩
      · have hpos := havail.1
        omega
      · rw [ensures_bind]
        refine (createEventFd_deeds (hd1.ledger hl0)).mono (fun created w2 hd2 => ?_)
        simp only [setPhase, ensures_ite, ensures_modifyLoop]
        exact ⟨fun _ => hdestroy w2 (hd1.trans hd2), fun _ => hbegun w2 (hd1.trans hd2)⟩
    · intro id hid
      rw [World.setKernel_kernel, Kernel.openId?_opened_self] at hid
      rw [← Option.some.inj hid]
      exact Function.update_self ..

theorem Begun.turn (hbegun : Begun l w w') (h : Steady w)
    (hphase : (w.loops l).phase = .created) : Turn l w w' := by
  obtain ⟨w1, hd, hend⟩ := hbegun
  have hd1 := (nameRoot_deed h hphase).deeds.trans hd
  rcases hend with rfl | hw
  · refine .moved w1 .waiting hd1 (fun _ => ?_) trivial (fun _ hr => hr.elim)
      (fun _ hin => nomatch hin)
    rw [hphase]
    trivial
  · exact .destroyed w1 w' hd1 hw

theorem init_turn (h : Steady w) (hphase : (w.loops l).phase = .created) :
    Ensures (init ans l) w (fun _ w' => Turn l w w') :=
  (init_begun h hphase).mono (fun _ _ hbegun => hbegun.turn h hphase)

theorem listenPort_turn {execType : ExecutorType} (h : Steady w)
    (hphase : (w.loops l).phase = .waiting) :
    Ensures (listenPort ans l execType) w (fun _ w' => Turn l w w') := by
  refine (listenPort_spec h.ledger.booked).mono (fun _ w' hc => ?_)
  obtain ⟨result, hc⟩ := hc
  refine .stayed w' (hc.deeds (fun r w1 ha => ha.deeds_none h.ledger.booked)) ?_ ?_
  · rw [hphase]
    trivial
  · rw [hphase]
    exact fun _ hr => hr.elim

theorem mem_of_mapM {α β : Type} {f : α → Option β} {xs : List α} {ys : List β} {y : β}
    (h : xs.mapM f = some ys) (hy : y ∈ ys) : ∃ x ∈ xs, f x = some y := by
  induction xs generalizing ys with
  | nil =>
    have hnil : [] = ys := by simpa using h
    rw [← hnil] at hy
    cases hy
  | cons x rest ih =>
    rw [List.mapM_cons] at h
    obtain ⟨y0, hx, h⟩ := Option.bind_eq_some_iff.mp h
    obtain ⟨ys0, hrest, h⟩ := Option.bind_eq_some_iff.mp h
    obtain rfl : y0 :: ys0 = ys := Option.some.inj h
    rcases List.mem_cons.mp hy with rfl | hin
    · exact ⟨x, List.mem_cons_self, hx⟩
    · obtain ⟨x', hx', heq⟩ := ih hrest hin
      exact ⟨x', List.mem_cons_of_mem _ hx', heq⟩

theorem waitForEvents_turn {ready : List (Int × Nat)} (hphase : (w.loops l).phase = .waiting) :
    Ensures (waitForEvents l ready curMillis) w (fun _ w' => Turn l w w') := by
  rw [waitForEvents, ensures_bind, ensures_get]
  cases hbatch : w.batch l ready with
  | none => exact ensures_fail.mpr trivial
  | some batch =>
    simp only [setPhase, ensures_modifyLoop]
    refine .moved w _ (.done w none) (fun _ => by rw [hphase]; trivial) trivial
      (fun _ hr => hr.elim) (fun event hin => Or.inr ?_)
    unfold World.batch at hbatch
    split at hbatch
    · obtain ⟨x, _, hx⟩ := mem_of_mapM hbatch hin
      exact ⟨x.1, x.2, hx⟩
    · cases hbatch

end

/-- The descriptor that a step closes although `down` has closed it. -/
def Action.closesAgain (a : Action) (w : World) : Option Int :=
  match a with
  | .continue l _ =>
    match (w.loops l).phase with
    | .closingAgain fd _ => some fd
    | _ => none
  | _ => none

/-- What is closed for a second time. -/
structure ClosesAgain (w : World) (l : Nat) (fd : Int) (w' : World) : Prop where
  world : ∃ next, (w.loops l).phase = .closingAgain fd next ∧
    w' = (w.setKernel (w.kernel.close fd)).setLoop l { w.loops l with phase := next }

section
variable {ans : Answers} {w w' : World} {l : Nat} {fd : Int} {a : Action}

theorem continueLoop_turn (h : Steady w) : Ensures (continueLoop ans l) w (fun _ w' =>
    Turn l w w' ∨ ∃ fd, (Action.continue l ans).closesAgain w = some fd ∧ ClosesAgain w l fd w') := by
  rw [continueLoop, ensures_bind, ensures_getLoop]
  cases hphase : (w.loops l).phase with
  | draining curMillis pending =>
    cases pending with
    | nil => exact (endRound_turn h hphase).mono (fun _ _ ht => Or.inl ht)
    | cons event pending => exact (drain_turn h hphase).mono (fun _ _ ht => Or.inl ht)
  | checkingNewFd r curMillis pending =>
    exact (checkNewFd_turn h hphase).mono (fun _ _ ht => Or.inl ht)
  | closingAgain fd next =>
    simp only [setPhase, ensures_bind, ensures_close, ensures_modifyLoop]
    refine Or.inr ⟨fd, ?_, next, hphase, rfl⟩
    simp only [Action.closesAgain, hphase]
  | _ => exact ensures_fail.mpr trivial

/-- A step is a turn of one loop, unless it closes a descriptor for a second time. -/
theorem step_turn (h : Steady w) (hstep : w.step a = some w') :
    ∃ l, Turn l w w' ∨ ∃ fd, a.closesAgain w = some fd ∧ ClosesAgain w l fd w' := by
  have hperform : Ensures a.perform w (fun _ w' =>
      ∃ l, Turn l w w' ∨ ∃ fd, a.closesAgain w = some fd ∧ ClosesAgain w l fd w') := by
    cases a with
    | init l ans =>
      simp only [Action.perform, ensures_bind, ensures_get]
      cases hphase : (w.loops l).phase with
      | created =>
        rw [ensures_ite]
        exact ⟨fun _ => (init_turn h hphase).mono (fun _ _ ht => ⟨l, Or.inl ht⟩),
          fun _ => ensures_fail.mpr trivial⟩
      | _ => exact ensures_fail.mpr trivial
    | listenPort l execType ans =>
      simp only [Action.perform, ensures_bind, ensures_getLoop]
      cases hphase : (w.loops l).phase with
      | waiting => exact (listenPort_turn h hphase).mono (fun _ _ ht => ⟨l, Or.inl ht⟩)
      | _ => exact ensures_fail.mpr trivial
    | epollWait l ready curMillis =>
      simp only [Action.perform, ensures_bind, ensures_getLoop]
      cases hphase : (w.loops l).phase with
      | waiting => exact (waitForEvents_turn hphase).mono (fun _ _ ht => ⟨l, Or.inl ht⟩)
      | _ => exact ensures_fail.mpr trivial
    | stop l =>
      simp only [Action.perform, ensures_bind, ensures_getLoop]
      cases hphase : (w.loops l).phase with
      | waiting =>
        exact (destroy_turn h.ledger (.done w none)).mono (fun _ _ ht => ⟨l, Or.inl ht⟩)
      | _ => exact ensures_fail.mpr trivial
    | «continue» l ans => exact (continueLoop_turn h).mono (fun _ _ ht => ⟨l, ht⟩)
  obtain ⟨⟨_, w1⟩, hrun, rfl⟩ := Option.map_eq_some_iff.mp hstep
  exact hperform _ _ hrun

/-! ## Closing again -/

theorem ClosesAgain.others (hc : ClosesAgain w l fd w') {l' : Nat} (hl : l' ≠ l) :
    w'.loops l' = w.loops l' := by
  obtain ⟨next, _, rfl⟩ := hc
  exact World.setLoop_other _ _ hl _

/-- A second `close` that closes nothing leaves the ledger in order. -/
theorem ClosesAgain.steady (hc : ClosesAgain w l fd w') (hclosed : w.kernel.openId? fd = none)
    (h : Steady w) : Steady w' := by
  have hothers := fun l' (hl : l' ≠ l) => hc.others hl
  obtain ⟨next, hphase, rfl⟩ := hc
  obtain ⟨htable, _, haccepted, hepoll, _⟩ := Kernel.close_refused hclosed
  have hopen : ∀ fd', (w.kernel.close fd).openId? fd' = w.kernel.openId? fd' :=
    Kernel.openId?_congr htable
  have hkernel : Ledger none (w.setKernel (w.kernel.close fd)) := by
    have hb := h.ledger.booked.setKernel (k := w.kernel.close fd)
      (fun fd' hfd' => by rw [hopen]; exact hfd') (fun fd' _ hnever => by rw [htable]; exact hnever)
      (fun l' fd' => by rw [hepoll])
    have hloose : ∀ fd' id, w.Loose fd' id → (w.setKernel (w.kernel.close fd)).Loose fd' id :=
      fun fd' id hl => hl.sameKernel (hopen fd')
    refine ⟨hb, h.ledger.queue.keep (fun _ => rfl) (fun _ d _ id hl => hloose d.fd id hl),
      h.ledger.kernel.congr htable, (fun _ hhand => nomatch hhand), fun l' hpos => ?_,
      h.ledger.epollApart, fun fd' id hfd' hid => ?_⟩
    · obtain ⟨hq, id, hl, hid⟩ := h.ledger.epoll l' hpos
      exact ⟨hq, id, hloose _ id hl, by rw [World.setKernel_kernel, haccepted]; exact hid⟩
    · rw [World.setKernel_kernel, hopen] at hfd'
      rw [World.setKernel_kernel, haccepted] at hid
      exact h.ledger.owner fd' id hfd' hid
  refine ⟨hkernel.assigned rfl rfl rfl rfl rfl (fun hlive => ?_), fun l' hl' => ?_,
    fun l' r hr => ?_⟩
  · rw [World.setKernel_loops, hphase]
    exact hlive
  · by_cases hl : l' = l
    · rw [hl, World.setLoop_self] at hl'
      have hfresh := h.fresh l (by rw [hphase]; exact hl')
      unfold World.usedPolls
      rw [hl, World.setLoop_self]
      exact hfresh
    · unfold World.usedPolls
      rw [hothers l' hl] at hl' ⊢
      exact h.fresh l' hl'
  · by_cases hl : l' = l
    · rw [hl, World.setLoop_self] at hr
      have hin := h.checking l r (by rw [hphase]; exact hr)
      unfold World.InUse
      rw [hl, World.setLoop_self]
      exact hin
    · unfold World.InUse
      rw [hothers l' hl] at hr ⊢
      exact h.checking l' r hr

end

end EpollHttp
