import EpollHttp.Executors.Stance
import EpollHttp.Executors.Dispatch

/-
What every executor upholds by itself is upheld in every run.

The condition is on the data of one executor and on the masks it is watched for, and data without a
class meets it.  A step concerns one executor, and leaves the others alone: it has to be shown
of `up` and of `process` alone that they restore the condition.
-/

namespace EpollHttp

open Program

/-- What is said of one executor. -/
abbrev Condition := ExecutorData → (Place → Option Nat) → Prop

def World.Meets (w : World) (P : Condition) (l r : Nat) : Prop := P (w.data l r) (w.mask l r)

def World.AllMeet (w : World) (P : Condition) : Prop := ∀ l r, w.Meets P l r

/-- All but one. -/
def World.OthersMeet (w : World) (P : Condition) (l r : Nat) : Prop :=
  ∀ l' r', ¬ (l' = l ∧ r' = r) → w.Meets P l' r'

/-- The class `process` is called of, and what it is given. -/
structure Call where
  executor : Executor
  ans : Answers
  data : ExecutorData
  fd : Int
  events : Nat

/-- The call of `process` that a step makes. -/
def Action.call (a : Action) (w : World) : Option Call :=
  match a with
  | .continue l ans =>
    match (w.loops l).phase with
    | .draining _ (event :: _) =>
      match w.delivery l event with
      | .processed r fd =>
        (w.data l r).pExecutor.map (fun e =>
          { executor := e, ans := ans, data := w.data l r, fd := fd, events := event.events })
      | _ => none
    | _ => none
  | _ => none

/-- The executors restore the condition in all calls that are allowed. -/
structure Upkeep (P : Condition) (allowed : Call → Prop) : Prop where
  classless : ∀ d mask, d.pExecutor = none → P d mask
  stamped : ∀ d mask curMillis, P d mask → P { d with lastProcessTime := curMillis } mask
  eventFd : ∀ d mask, d.pExecutor = some .newFd → d.removeOnTimeout = false → P d mask
  up : ∀ (ans : Answers) (w : World) (l r : Nat) (e : Executor), Did l r (some e) w w →
    (w.data l r).Alone → w.pollDataAt l r .fd0 = none →
    (¬ (e = .request ∨ e = .sslRequest) → w.fdAt l r .fd0 = -1) →
    Ensures (upCreated e ans l r) w (fun result w' =>
      (∃ x, Did l r x w w') ∧ (result = 0 → w'.Meets P l r))
  process : ∀ (call : Call) (w : World) (l r : Nat), Booked w → w.InUse l r →
    w.data l r = call.data → call.data.pExecutor = some call.executor → call.executor.Serves →
    0 < call.fd → allowed call → w.Meets P l r →
    Ensures (call.executor.process call.ans l r call.fd call.events) w (fun result w' =>
      result = .ok → w'.Meets P l r ∨
        ExecutorData.MAX_RETRY_COUNTER < (w'.data l r).retryCounter)

section
variable {P : Condition} {allowed : Call → Prop}
variable {ans : Answers} {w w1 w' : World} {l r : Nat} {e : Executor} {fd : Int}

theorem World.Meets.congr (h : w.Meets P l r) (hdata : w'.data l r = w.data l r)
    (hmask : ∀ place, w'.mask l r place = w.mask l r place) : w'.Meets P l r := by
  have hmasks : w'.mask l r = w.mask l r := funext hmask
  unfold World.Meets
  rw [hdata, hmasks]
  exact h

theorem World.AllMeet.others (h : w.AllMeet P) (l r : Nat) : w.OthersMeet P l r :=
  fun l' r' _ => h l' r'

theorem World.OthersMeet.all (h : w.OthersMeet P l r) (hself : w.Meets P l r) : w.AllMeet P := by
  intro l' r'
  by_cases hsame : l' = l ∧ r' = r
  · rw [hsame.1, hsame.2]
    exact hself
  · exact h l' r' hsame

theorem World.AllMeet.congr (h : w.AllMeet P) (hdata : ∀ l r, w'.data l r = w.data l r)
    (hmask : ∀ l r place, w'.mask l r place = w.mask l r place) : w'.AllMeet P :=
  fun l r => (h l r).congr (hdata l r) (hmask l r)

/-! ## What leaves the others alone -/

theorem Undisturbed.meets (hu : Undisturbed l r w w') (hb : Booked w) (h : w.Meets P l r) :
    w'.Meets P l r := h.congr hu.data (hu.mask hb)

theorem Did.othersMeet {x : Option Executor} (hd : Did l r x w w') (hb : Booked w)
    (h : w.OthersMeet P l r) : w'.OthersMeet P l r :=
  fun l' r' hne => (hd.effects.undisturbed hb hne).meets hb (h l' r' hne)

theorem TakenBack.allMeet (hp : Upkeep P allowed) (ht : TakenBack l r w w') (hb : Booked w)
    (h : w.OthersMeet P l r) : w'.AllMeet P := by
  have hothers : w'.OthersMeet P l r :=
    fun l' r' hne => (ht.undisturbed hb hne).meets hb (h l' r' hne)
  refine hothers.all (hp.classless _ _ ?_)
  rw [ht.data_self]
  rfl

theorem HandedOut.allMeet (hp : Upkeep P allowed) (hh : HandedOut w l r w') (hb : Booked w)
    (h : w.AllMeet P) : w'.AllMeet P := by
  intro l' r'
  have hsame : w'.data l' r' = w.data l' r' → w'.Meets P l' r' := by
    intro hdata
    refine (h l' r').congr hdata (fun place => ?_)
    unfold World.mask World.pollDataAt World.fdAt
    rw [hdata, hh.kernel]
  rcases hh.data hb l' r' with heq | ⟨_, heq⟩
  · exact hsame heq
  · exact hp.classless _ _ (by rw [heq])

theorem Adopted.othersMeet (hp : Upkeep P allowed) (ha : Adopted w l r fd e w') (hb : Booked w)
    (h : w.AllMeet P) : w'.OthersMeet P l r := by
  obtain ⟨w1, millis, hh, rfl⟩ := ha
  exact fun l' r' hne => (hh.allMeet hp hb h l' r').congr (World.setData_other _ _ hne _)
    (setData_mask_other hne _)

/-- What was in use of the loop is cleared. -/
theorem Destroyed.allMeet (hp : Upkeep P allowed) (hd : Destroyed w l w') (hl : Ledger none w)
    (h : ∀ l' r', (l' = l → ¬ w.InUse l r') → w.Meets P l' r') : w'.AllMeet P := by
  have hunheld : 0 < (w.loops l).epollFd → w.Unheld (w.loops l).epollFd := by
    intro hpos
    obtain ⟨id, hloose⟩ := hl.looseEpoll hpos
    exact hloose.2
  intro l' r'
  by_cases heq : l' = l
  · subst heq
    rcases hd.data r' with hcleared | ⟨hidle, hdata⟩
    · refine hp.classless _ _ ?_
      rw [hcleared]
      rfl
    · -- Data that is not in use watches nothing before and after.
      refine (h l' r' (fun _ => hidle)).congr hdata (fun place => ?_)
      rw [mask_none (hd.empty hl.booked r' place).2,
        mask_none ((hl.booked.loops l').idle r' hidle place).2]
  · have hdata := hd.otherData heq r'
    refine (h l' r' (fun hsame => absurd hsame heq)).congr hdata (fun place => ?_)
    refine mask_congr ?_ (fun _ => ?_)
    · unfold World.pollDataAt
      rw [hdata]
    · rw [hd.epoll hl.booked hunheld, if_neg heq]
      unfold World.fdAt
      rw [hdata]

theorem setLoop_allMeet {loop : PollLoop} (h : w.AllMeet P)
    (hexecs : loop.execDatas = (w.loops l).execDatas) : (w.setLoop l loop).AllMeet P :=
  h.congr (World.setLoop_data _ _ (fun _ => by rw [hexecs]))
    (setLoop_mask (fun _ => by rw [hexecs]))

theorem setKernel_allMeet {k : Kernel} (h : w.AllMeet P) (hepoll : k.epoll = w.kernel.epoll) :
    (w.setKernel k).AllMeet P := h.congr (fun _ _ => rfl) (fun _ _ => setKernel_mask hepoll)

theorem setPhase_allMeet {phase : Phase} (h : w.AllMeet P) :
    Ensures (setPhase l phase) w (fun _ w' => w'.AllMeet P) :=
  ensures_modifyLoop.mpr (setLoop_allMeet h rfl)

/-- A descriptor that nobody holds is closed. -/
theorem closed_allMeet (h : w.AllMeet P) (hun : w.Unheld fd) :
    (w.setKernel (w.kernel.close fd)).AllMeet P :=
  h.congr (fun _ _ => rfl) (fun l' r' place =>
    close_mask (fun _ _ => rfl) (fun _ heq => hun l' r' place heq))

/-! ## Removals -/

theorem removeAll_allMeet (hp : Upkeep P allowed) (rs : List Nat) (hnodup : rs.Nodup)
    (hb : Booked w) (huse : ∀ r ∈ rs, w.InUse l r) (h : w.AllMeet P) :
    Ensures (removeAll l rs) w (fun _ w' => w'.AllMeet P) := by
  induction rs generalizing w with
  | nil => exact ensures_pure.mpr h
  | cons r rest ih =>
    simp only [removeAll, ensures_bind]
    obtain ⟨hnew, hrest⟩ := List.nodup_cons.mp hnodup
    refine (removeExecutorData_spec hb (huse r List.mem_cons_self)).mono (fun _ w1 ht => ?_)
    refine ih hrest ht.booked (fun r' hr' => ?_) (ht.allMeet hp hb (h.others l r))
    exact (ht.inUse hb l r').mpr ⟨huse r' (List.mem_cons_of_mem _ hr'),
      fun hboth => hnew (hboth.2 ▸ hr')⟩

theorem checkTimeout_allMeet {curMillis : Int} (hp : Upkeep P allowed) (hb : Booked w)
    (h : w.AllMeet P) : Ensures (checkTimeout l curMillis) w (fun _ w' => w'.AllMeet P) := by
  simp only [checkTimeout, ensures_bind, ensures_get]
  rw [enumerate_eq hb]
  simp only [ensures_bind, ensures_modifyLoop]
  exact (removeAll_allMeet hp _ ((usedItems_nodup (hb.loops l).execs).filter _) hb
    (fun r hr => List.mem_of_mem_filter hr) h).mono (fun _ _ h1 => setLoop_allMeet h1 rfl)

/-! ## New executors -/

/-- The data is taken back when `up` failed. -/
theorem adopted_allMeet (hp : Upkeep P allowed) (hb : Booked w) (h : w.AllMeet P)
    (ha : Adopted w l r fd e w1) (hfd : fd = -1 ∨ (w.kernel.openId? fd ≠ none ∧ w.Unheld fd))
    (hserver : ¬ (e = .request ∨ e = .sslRequest) → fd = -1) :
    Ensures (upCreated e ans l r) w1 (fun result w2 =>
      (result ≠ 0 → Ensures (removeExecutorData l r) w2 (fun _ w' => w'.AllMeet P)) ∧
        (¬ result ≠ 0 → w2.AllMeet P)) := by
  obtain ⟨hdid, halone, hpoll, hat⟩ := ha.did hb hfd
  refine (hp.up ans w1 l r e hdid halone hpoll (fun hne => hat.trans (hserver hne))).mono
    (fun result w2 h2 => ?_)
  obtain ⟨⟨x, hdid2⟩, hself⟩ := h2
  have hothers := hdid2.othersMeet hdid.booked (ha.othersMeet hp hb h)
  refine ⟨fun _ => ?_, fun hok => hothers.all (hself (not_not.mp hok))⟩
  exact (removeExecutorData_spec hdid2.booked hdid2.inUse).mono (fun _ _ ht =>
    ht.allMeet hp hdid2.booked hothers)

theorem createRequestExecutorInternal_allMeet {execType : ExecutorType} (hp : Upkeep P allowed)
    (hb : Booked w) (htype : execType.Requests) (hopen : w.kernel.openId? fd ≠ none)
    (hun : w.Unheld fd) (h : w.AllMeet P) :
    Ensures (createRequestExecutorInternal ans l fd execType) w (fun _ w' => w'.AllMeet P) := by
  rw [createRequestExecutorInternal, ensures_bind]
  refine createExecutorData_spec (fun r w1 hh => ?_)
  rw [ensures_bind, ensures_modifyData, World.setData_self, World.setData_setData, ensures_bind]
  refine (adopted_allMeet hp hb h ⟨w1, ans.milliseconds, hh, rfl⟩ (Or.inr ⟨hopen, hun⟩)
    (fun hne => absurd ?_ hne)).mono (fun result w2 h2 => ?_)
  · rcases htype with rfl | rfl
    · exact Or.inl rfl
    · exact Or.inr rfl
  · simp only [ensures_ite, ensures_bind, ensures_pure]
    exact h2

theorem listenPort_allMeet {execType : ExecutorType} (hp : Upkeep P allowed) (hb : Booked w)
    (h : w.AllMeet P) : Ensures (listenPort ans l execType) w (fun _ w' => w'.AllMeet P) := by
  rw [listenPort, ensures_bind]
  refine createExecutorData_spec (fun r w1 hh => ?_)
  rw [ensures_bind, ensures_modifyData, World.setData_self, World.setData_setData, ensures_bind]
  have hfd0 : (w1.data l r).fd0 = -1 :=
    (hh.fdAt hb l r .fd0).trans ((hb.loops l).idle r (hh.spec hb).1 .fd0).1
  refine (adopted_allMeet hp hb h ⟨w1, ans.milliseconds, hh, ?_⟩ (Or.inl rfl)
    (fun _ => rfl)).mono (fun result w2 h2 => ?_)
  · rw [← hfd0]
  · rw [ensures_when]
    exact h2

/-- A connection that was accepted is set up, queued or closed. -/
theorem createRequestExecutor_allMeet {execType : ExecutorType} (hp : Upkeep P allowed)
    (hb : Booked w) (htype : execType.Requests) (hopen : w.kernel.openId? fd ≠ none)
    (hun : w.Unheld fd) (h : w.AllMeet P) :
    Ensures (createRequestExecutor ans l fd execType) w (fun _ w' => w'.AllMeet P) := by
  simp only [createRequestExecutor, ensures_bind, ensures_get, ensures_ite]
  refine ⟨fun _ => createRequestExecutorInternal_allMeet hp hb htype hopen hun h, fun _ => ?_⟩
  simp only [serverCreateRequestExecutor, enqueueClientFd, ensures_bind, ensures_get,
    ensures_getLoop, ensures_ite, ensures_modifyLoop, ensures_pure, ensures_close]
  have hqueued : ∀ i loop, loop.execDatas = (w.loops i).execDatas → (w.setLoop i loop).AllMeet P :=
    fun i loop hexecs => setLoop_allMeet h hexecs
  exact ⟨fun _ => ⟨fun _ => closed_allMeet h hun, fun _ => h⟩,
    fun _ => ⟨fun hne => absurd rfl hne, fun _ => hqueued _ _ rfl⟩⟩

theorem serverProcess_allMeet {execType : ExecutorType} {events : Int} (hp : Upkeep P allowed)
    (hb : Booked w) (htype : execType.Requests) (h : w.AllMeet P) :
    Ensures (serverProcess execType ans l r events) w (fun _ w' => w'.AllMeet P) := by
  simp only [serverProcess, ensures_bind, ensures_getData, ensures_ite, ensures_pure]
  refine ⟨fun _ => h, fun _ => newDescriptor_spec.mono (fun fd w1 hnew => ?_)⟩
  rcases hnew with ⟨rfl, rfl⟩ | ⟨rfl, havail, rfl⟩
  · exact ⟨fun _ => h, fun hne => absurd rfl hne⟩
  · have h1 := setKernel_allMeet (k := w.kernel.opened ans.accept4 true) h rfl
    refine ⟨fun _ => h1, fun _ => createRequestExecutor_allMeet hp (hb.openedKernel havail) htype ?_
      (hb.unheld_of_closed havail.1 havail.2) h1⟩
    rw [World.setKernel_kernel, Kernel.openId?_opened_self]
    exact Option.some_ne_none _

/-! ## The beginning of a loop -/

theorem createEventFd_allMeet (hp : Upkeep P allowed) (hl : Ledger none w) (h : w.AllMeet P) :
    Ensures (createEventFd ans l) w (fun _ w' => w'.AllMeet P) := by
  rw [createEventFd, ensures_bind]
  refine newDescriptor_spec.mono (fun fd w1 hnew => ?_)
  rw [ensures_bind, ensures_modifyLoop, ensures_ite, ensures_pure]
  rcases hnew with ⟨rfl, rfl⟩ | ⟨rfl, havail, rfl⟩
  · exact ⟨fun _ => setLoop_allMeet h rfl, fun hpos => absurd (by decide) hpos⟩
  have hl1 : Ledger (some ans.eventfd) ((w.setKernel (w.kernel.opened ans.eventfd false)).setLoop l
      { (w.setKernel (w.kernel.opened ans.eventfd false)).loops l with eventFd := ans.eventfd }) :=
    Deeds.ledger ((Deed.opened _ false havail).deeds.next
      (.assigned _ ans.eventfd (w.loops l).lastCheckTimeoutMillis)) hl
  have h1 : ((w.setKernel (w.kernel.opened ans.eventfd false)).setLoop l
      { (w.setKernel (w.kernel.opened ans.eventfd false)).loops l with
        eventFd := ans.eventfd }).AllMeet P :=
    setLoop_allMeet (setKernel_allMeet h rfl) rfl
  generalize (w.setKernel (w.kernel.opened ans.eventfd false)).setLoop l
    { (w.setKernel (w.kernel.opened ans.eventfd false)).loops l with
      eventFd := ans.eventfd } = w1 at hl1 h1
  refine ⟨fun _ => h1, fun _ => ?_⟩
  rw [ensures_bind]
  refine createExecutorData_spec (fun r w2 hh => ?_)
  rw [ensures_bind, ensures_modifyData, World.setData_self, World.setData_setData, ensures_bind]
  have ha : Adopted w1 l r ans.eventfd .newFd (w2.setData l r { w2.data l r with
      createTime := ans.milliseconds, lastProcessTime := ans.milliseconds,
      pExecutor := some .newFd, fd0 := ans.eventfd }) := ⟨w2, ans.milliseconds, hh, rfl⟩
  have hdid := (ha.did hl1.booked (Or.inr hl1.openInHand)).1
  have hothers := ha.othersMeet hp hl1.booked h1
  generalize w2.setData l r { w2.data l r with
    createTime := ans.milliseconds, lastProcessTime := ans.milliseconds,
    pExecutor := some .newFd, fd0 := ans.eventfd } = w3 at hdid hothers
  refine (did_addPollFd w3 hdid).mono (fun added w4 h4 => ?_)
  have hothers4 := h4.othersMeet hdid.booked hothers
  rw [ensures_ite, ensures_bind, ensures_bind, ensures_modifyData, ensures_pure]
  refine ⟨fun _ => ?_, fun _ => ?_⟩
  · refine (removeExecutorData_spec h4.booked h4.inUse).mono (fun _ w5 ht => ?_)
    rw [ensures_pure]
    exact ht.allMeet hp h4.booked hothers4
  · have h5 : Did l r (some .newFd) w3 (w4.setData l r { w4.data l r with
        removeOnTimeout := false, state := .ok }) := h4.data ⟨fun _ => rfl, fun _ => rfl⟩ rfl
    refine (h5.othersMeet hdid.booked hothers).all (hp.eventFd _ _ h5.exec ?_)
    rw [World.setData_self]

theorem destroy_allMeet (hp : Upkeep P allowed) (hl : Ledger none w) (h : w.AllMeet P) :
    Ensures (destroy l) w (fun _ w' => w'.AllMeet P) :=
  (destroy_spec hl.booked hl.kernel hl.looseEpoll).mono (fun _ _ hd =>
    hd.allMeet hp hl (fun l' r' _ => h l' r'))

theorem init_allMeet (hp : Upkeep P allowed) (hw : Steady w)
    (hphase : (w.loops l).phase = .created) (h : w.AllMeet P) :
    Ensures (init ans l) w (fun _ w' => w'.AllMeet P) := by
  obtain ⟨_, hepoll⟩ := hw.fresh l (by rw [hphase]; exact fun hstarted => hstarted)
  have hl0 : Ledger none (w.nameRoot l) := (nameRoot_deed hw hphase).ledger hw.ledger
  have h0 : (w.nameRoot l).AllMeet P := setLoop_allMeet h rfl
  have hepoll0 : ((w.nameRoot l).loops l).epollFd = -1 := by
    rw [World.nameRoot, World.setLoop_self]
    exact hepoll
  rw [init, ensures_bind, ensures_get, ensures_bind, ensures_modifyLoop, ensures_bind]
  change Ensures _ (w.nameRoot l) _
  generalize w.nameRoot l = w0 at hl0 h0 hepoll0
  refine newDescriptor_spec.mono (fun fd w1 hnew => ?_)
  rw [ensures_bind, ensures_modifyLoop, ensures_ite]
  rcases hnew with ⟨rfl, rfl⟩ | ⟨rfl, havail, rfl⟩
  · refine ⟨fun _ => ?_, fun hne => absurd rfl hne⟩
    have hsame : w1.setLoop l { w1.loops l with epollFd := -1 } = w1 := by
      rw [← hepoll0]
      exact World.setLoop_eq w1 l
    rw [hsame]
    exact destroy_allMeet hp hl0 h0
  · have hl1 := ((Deed.opened (l := l) ans.epollCreate false havail).deeds.next
      (.epollFd ans.epollCreate (fun id hid => ?_))).ledger hl0
    · have h1 : ((w0.setKernel (w0.kernel.opened ans.epollCreate false)).setLoop l
          { (w0.setKernel (w0.kernel.opened ans.epollCreate false)).loops l with
            epollFd := ans.epollCreate }).AllMeet P :=
        setLoop_allMeet (setKernel_allMeet h0 rfl) rfl
      refine ⟨fun heq => ?_, fun _ => ?_⟩
      · have hpos := havail.1
        omega
      · rw [ensures_bind]
        refine ((createEventFd_allMeet hp hl1 h1).and (createEventFd_deeds hl1)).mono
          (fun created w2 h2 => ?_)
        rw [ensures_ite]
        exact ⟨fun _ => destroy_allMeet hp (h2.2.ledger hl1) h2.1,
          fun _ => setPhase_allMeet h2.1⟩
    · rw [World.setKernel_kernel, Kernel.openId?_opened_self] at hid
      rw [← Option.some.inj hid]
      exact Function.update_self ..

/-! ## Turns -/

variable {curMillis : Int} {event : EpollEvent} {pending : List EpollEvent}

/-- The executor stays and meets the condition, or it goes. -/
theorem finishProcess_allMeet {result : ProcessResult} (hp : Upkeep P allowed)
    (hl : Ledger none w) (huse : w.InUse l r) (hothers : w.OthersMeet P l r)
    (hself : result = .ok → w.Meets P l r ∨
      ExecutorData.MAX_RETRY_COUNTER < (w.data l r).retryCounter) :
    Ensures (finishProcess l r curMillis pending result) w (fun _ w' => w'.AllMeet P) := by
  have hremove : Ensures (removeExecutorData l r) w (fun _ w1 =>
      Ensures (setPhase l (.draining curMillis pending)) w1 (fun _ w' => w'.AllMeet P)) :=
    (removeExecutorData_spec hl.booked huse).mono (fun _ _ ht =>
      setPhase_allMeet (ht.allMeet hp hl.booked hothers))
  cases result with
  | removeExecutorOk =>
    simp only [finishProcess, ensures_bind]
    exact hremove
  | removeExecutorError =>
    simp only [finishProcess, ensures_bind]
    exact hremove
  | shutdown =>
    refine (destroy_spec hl.booked hl.kernel hl.looseEpoll).mono (fun _ w1 hd => ?_)
    exact hd.allMeet hp hl (fun l' r' hidle => hothers l' r' (fun hsame =>
      hidle hsame.1 (hsame.2 ▸ huse)))
  | ok =>
    simp only [finishProcess, ensures_bind, ensures_getData, ensures_ite, ensures_modifyData]
    refine ⟨fun _ => hremove, fun hretries => setPhase_allMeet ?_⟩
    have hstamped := hp.stamped _ _ curMillis ((hself rfl).resolve_right hretries)
    refine World.OthersMeet.all (fun l' r' hne => (hothers l' r' hne).congr
      (World.setData_other _ _ hne _) (setData_mask_other hne _)) ?_
    have hmask : (w.setData l r { w.data l r with lastProcessTime := curMillis }).mask l r =
        w.mask l r := by
      funext place
      refine mask_congr ?_ (fun _ => ?_)
      · rw [World.setData_pollDataAt, if_pos ⟨rfl, rfl⟩]
        cases place <;> rfl
      · rw [World.setData_fdAt, if_pos ⟨rfl, rfl⟩]
        cases place <;> rfl
    unfold World.Meets
    rw [World.setData_self, hmask]
    exact hstamped

theorem checkNewFd_allMeet (hp : Upkeep P allowed) (hw : Steady w) (h : w.AllMeet P)
    (hphase : (w.loops l).phase = .checkingNewFd r curMillis pending) :
    Ensures (checkNewFd ans l r curMillis pending) w (fun _ w' => w'.AllMeet P) := by
  have huse : w.InUse l r := hw.checking l r (by rw [hphase]; rfl)
  rw [checkNewFd, ensures_bind, ensures_getLoop]
  cases hqueue : (w.loops l).newFdsQueue with
  | nil => exact finishProcess_allMeet hp hw.ledger huse (h.others l r) (fun _ => Or.inl (h l r))
  | cons d rest =>
    dsimp only
    rw [ensures_bind, ensures_modifyLoop, ensures_bind]
    obtain ⟨hl1, htype⟩ := firstQueued_taken hw.ledger hqueue
    obtain ⟨hopen, hunheld⟩ := hl1.openInHand
    have h1 : (w.setLoop l { w.loops l with newFdsQueue := rest }).AllMeet P :=
      setLoop_allMeet h rfl
    refine (createRequestExecutorInternal_allMeet hp hl1.booked htype hopen hunheld h1).mono
      (fun result w2 h2 => ?_)
    rw [ensures_when]
    exact ⟨fun _ => setPhase_allMeet h2, fun _ => h2⟩

theorem endRound_allMeet (hp : Upkeep P allowed) (hb : Booked w) (h : w.AllMeet P) :
    Ensures (endRound l curMillis) w (fun _ w' => w'.AllMeet P) := by
  simp only [endRound, ensures_bind, ensures_get, ensures_ite]
  exact ⟨fun _ => (checkTimeout_allMeet hp hb h).mono (fun _ _ h1 => setPhase_allMeet h1),
    fun _ => setPhase_allMeet h⟩

/-- A call of `process` of an executor that serves a client. -/
theorem Upkeep.served {events : Nat} (hp : Upkeep P allowed) (hb : Booked w) (huse : w.InUse l r)
    (he : (w.data l r).pExecutor = some e) (hserves : e.Serves) (hpos : 0 < fd)
    (hallowed : allowed ⟨e, ans, w.data l r, fd, events⟩) (h : w.AllMeet P) :
    Ensures (e.process ans l r fd events) w (fun result w1 => w1.OthersMeet P l r ∧
      (result = .ok → w1.Meets P l r ∨
        ExecutorData.MAX_RETRY_COUNTER < (w1.data l r).retryCounter)) := by
  refine ((process_serving hserves ⟨.refl, hb, huse, he⟩).and (hp.process
    ⟨e, ans, w.data l r, fd, events⟩ w l r hb huse rfl he hserves hpos hallowed (h l r))).mono
      (fun result w1 h1 => ?_)
  obtain ⟨⟨e', hdid, _⟩, hself⟩ := h1
  exact ⟨hdid.othersMeet hb (h.others l r), hself⟩

/-- The thread calls `process` for one entry. -/
theorem drain_allMeet (hp : Upkeep P allowed) (hw : Steady w) (h : w.AllMeet P)
    (hphase : (w.loops l).phase = .draining curMillis (event :: pending))
    (hallowed : ∀ call ∈ (Action.continue l ans).call w, allowed call) :
    Ensures (drain ans l curMillis event pending) w (fun _ w' => w'.AllMeet P) := by
  have hb := hw.ledger.booked
  have hlive : (w.loops l).phase.Live := by
    rw [hphase]
    trivial
  rw [drain, ensures_bind, ensures_get]
  cases hdel : w.delivery l event with
  | skipped => exact setPhase_allMeet h
  | removed r =>
    obtain ⟨_, place, hslot, _⟩ := hb.points hlive (delivery_removed hdel)
    rw [ensures_bind]
    exact (removeExecutorData_spec hb (hb.inUse hslot)).mono (fun _ _ ht =>
      setPhase_allMeet (ht.allMeet hp hb (h.others l r)))
  | processed r fd =>
    obtain ⟨hexec, hfd⟩ := delivery_processed hdel
    obtain ⟨_, place, hslot, hat⟩ := hb.points hlive hexec
    have huse := hb.inUse hslot
    have hpos : 0 < fd := by
      rw [← hfd, hat]
      exact hb.watched_positive hslot
    dsimp only
    cases he : (w.data l r).pExecutor with
    | none => exact ensures_fail.mpr trivial
    | some e =>
      have hcall : allowed ⟨e, ans, w.data l r, fd, event.events⟩ := by
        refine hallowed _ ?_
        simp only [Action.call, hphase, hdel, he]
        rfl
      have hprocess : Ensures (e.process ans l r fd event.events) w (fun result w1 =>
          w1.OthersMeet P l r ∧ (result = .ok → w1.Meets P l r ∨
            ExecutorData.MAX_RETRY_COUNTER < (w1.data l r).retryCounter)) := by
        by_cases hserves : e.Serves
        · exact hp.served hb huse he hserves hpos hcall h
        · have hall : ∀ {m : Prog ProcessResult}, Ensures m w (fun _ w1 => w1.AllMeet P) →
              Ensures m w (fun result w1 => w1.OthersMeet P l r ∧ (result = .ok →
                w1.Meets P l r ∨
                  ExecutorData.MAX_RETRY_COUNTER < (w1.data l r).retryCounter)) :=
            fun hm => hm.mono (fun _ _ h1 => ⟨h1.others l r, fun _ => Or.inl (h1 l r)⟩)
          cases e with
          | newFd => exact ensures_fail.mpr trivial
          | server => exact hall (serverProcess_allMeet hp hb (Or.inl rfl) h)
          | sslServer => exact hall (serverProcess_allMeet hp hb (Or.inr rfl) h)
          | _ => exact absurd trivial hserves
      have hround : Ensures (do
          let result ← e.process ans l r fd event.events
          finishProcess l r curMillis pending result) w (fun _ w' => w'.AllMeet P) := by
        rw [ensures_bind]
        refine (hprocess.and (process_spec hb huse he)).mono (fun result w1 h1 => ?_)
        obtain ⟨⟨hothers, hself⟩, hdone⟩ := h1
        exact finishProcess_allMeet hp ((hdone.deeds hb).ledger hw.ledger)
          ((hdone.booked hb).2 l r huse) hothers hself
      cases e with
      | newFd =>
        simp only [startCheckNewFd, ensures_ite]
        exact ⟨fun _ => setPhase_allMeet h, fun _ => destroy_allMeet hp hw.ledger h⟩
      | server => exact hround
      | sslServer => exact hround
      | request => exact hround
      | sslRequest => exact hround
      | file => exact hround
      | sslFile => exact hround
      | proxySplice => exact hround
      | proxyReadWrite => exact hround
      | sslProxy => exact hround

theorem continueLoop_allMeet (hp : Upkeep P allowed) (hw : Steady w) (h : w.AllMeet P)
    (hspares : ∀ fd ∈ (Action.continue l ans).closesAgain w, w.kernel.openId? fd = none)
    (hallowed : ∀ call ∈ (Action.continue l ans).call w, allowed call) :
    Ensures (continueLoop ans l) w (fun _ w' => w'.AllMeet P) := by
  rw [continueLoop, ensures_bind, ensures_getLoop]
  cases hphase : (w.loops l).phase with
  | draining curMillis pending =>
    cases pending with
    | nil => exact endRound_allMeet hp hw.ledger.booked h
    | cons event pending => exact drain_allMeet hp hw h hphase hallowed
  | checkingNewFd r curMillis pending => exact checkNewFd_allMeet hp hw h hphase
  | closingAgain fd next =>
    have hclosed : w.kernel.openId? fd = none := by
      refine hspares fd ?_
      simp only [Action.closesAgain, hphase]
      rfl
    rw [ensures_bind, ensures_close]
    exact setPhase_allMeet (setKernel_allMeet h (Kernel.close_refused hclosed).2.2.2.1)
  | _ => exact ensures_fail.mpr trivial

variable {a : Action}

/-- A step that makes no call but those that are allowed. -/
theorem step_allMeet (hp : Upkeep P allowed) (hw : Steady w) (h : w.AllMeet P)
    (hspares : ∀ fd ∈ a.closesAgain w, w.kernel.openId? fd = none)
    (hallowed : ∀ call ∈ a.call w, allowed call) (hstep : w.step a = some w') :
    Steady w' ∧ w'.AllMeet P := by
  have hperform : Ensures a.perform w (fun _ w' => w'.AllMeet P) := by
    cases a with
    | init l ans =>
      simp only [Action.perform, ensures_bind, ensures_get]
      cases hphase : (w.loops l).phase with
      | created =>
        rw [ensures_ite]
        exact ⟨fun _ => init_allMeet hp hw hphase h, fun _ => ensures_fail.mpr trivial⟩
      | _ => exact ensures_fail.mpr trivial
    | listenPort l execType ans =>
      simp only [Action.perform, ensures_bind, ensures_getLoop]
      cases hphase : (w.loops l).phase with
      | waiting => exact listenPort_allMeet hp hw.ledger.booked h
      | _ => exact ensures_fail.mpr trivial
    | epollWait l ready curMillis =>
      simp only [Action.perform, ensures_bind, ensures_getLoop]
      cases hphase : (w.loops l).phase with
      | waiting =>
        simp only [waitForEvents, ensures_bind, ensures_get]
        cases w.batch l ready with
        | none => exact ensures_fail.mpr trivial
        | some batch => exact setPhase_allMeet h
      | _ => exact ensures_fail.mpr trivial
    | stop l =>
      simp only [Action.perform, ensures_bind, ensures_getLoop]
      cases hphase : (w.loops l).phase with
      | waiting => exact destroy_allMeet hp hw.ledger h
      | _ => exact ensures_fail.mpr trivial
    | «continue» l ans => exact continueLoop_allMeet hp hw h hspares hallowed
  refine ⟨?_, ?_⟩
  · obtain ⟨l, ht | ⟨fd, hagain, hc⟩⟩ := step_turn hw hstep
    · exact ht.steady hw
    · exact hc.steady (hspares fd hagain) hw
  · obtain ⟨⟨_, w1⟩, hrun, rfl⟩ := Option.map_eq_some_iff.mp hstep
    exact hperform _ _ hrun

end

end EpollHttp
