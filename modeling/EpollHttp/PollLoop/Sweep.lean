import EpollHttp.PollLoop.Shutdown
import EpollHttp.PollLoop.Upkeep

/-
What `checkTimeout` takes away.

The executors that have expired are handed back one after the other, and the rest of the used list
keeps its order.  An executor that serves no client has been exempted by its `up`, and stays so.
-/

namespace EpollHttp

open Program

/-! ## Removing comes to an end -/

section
variable {w : World} {l r : Nat} {fd : Int}

theorem removePollFd_returns (w : World) (l r : Nat) (fd : Int) :
    Returns (removePollFd l r fd) w := by
  unfold removePollFd
  refine Returns.bind ⟨_, _, rfl⟩ (ensures_getData.mpr ?_)
  cases (w.data l r).pollDataOf fd with
  | none => exact .pure _ _
  | some p =>
    refine Returns.bind ⟨_, _, rfl⟩ (ensures_getKernel.mpr ?_)
    cases w.kernel.ctlDel l fd with
    | none => exact .pure _ _
    | some k => exact ⟨_, _, rfl⟩

theorem when_returns {c : Prop} [Decidable c] {m : Prog PUnit} (hm : Returns m w) :
    Returns (when c m) w := by
  unfold when
  split
  · exact hm
  · exact .pure _ _

theorem removeExecutorData_returns (w : World) (l r : Nat) :
    Returns (removeExecutorData l r) w := by
  have hremove : ∀ (c : Prop) [Decidable c] (fd : Int) (w : World),
      Returns (when c (do let _ ← removePollFd l r fd)) w := fun c _ fd w =>
    when_returns (Returns.bind (removePollFd_returns w l r fd) (fun _ _ _ => .pure _ _))
  unfold removeExecutorData
  refine Returns.bind ⟨_, _, rfl⟩ (fun _ w1 _ => ?_)
  refine Returns.bind (hremove _ _ w1) (fun _ w2 _ => ?_)
  refine Returns.bind ⟨_, _, rfl⟩ (fun _ w3 _ => ?_)
  refine Returns.bind (hremove _ _ w3) (fun _ w4 _ => ?_)
  exact Returns.bind ⟨_, _, down_runs w4 l r⟩ (fun _ _ _ => ⟨_, _, rfl⟩)

theorem removeAll_returns (w : World) (l : Nat) (rs : List Nat) : Returns (removeAll l rs) w := by
  induction rs generalizing w with
  | nil => exact .pure _ _
  | cons r rest ih =>
    exact Returns.bind (removeExecutorData_returns w l r) (fun _ w1 _ => ih w1)

theorem checkTimeout_returns {curMillis : Int} (hb : Booked w) :
    Returns (checkTimeout l curMillis) w := by
  unfold checkTimeout
  refine Returns.bind ⟨_, _, rfl⟩ (ensures_get.mpr ?_)
  dsimp only
  rw [enumerate_eq hb]
  exact Returns.bind (removeAll_returns _ _ _) (fun _ _ _ => ⟨_, _, rfl⟩)

end

/-! ## What is handed back -/

/-- The executor has expired. -/
def World.Expired (w : World) (l : Nat) (curMillis : Int) (r : Nat) : Prop :=
  TimedOut (w.data l r) w.parameters.executorTimeoutMillis curMillis

instance (w : World) (l : Nat) (curMillis : Int) (r : Nat) : Decidable (w.Expired l curMillis r) :=
  inferInstanceAs (Decidable (TimedOut _ _ _))

/-- The executors of the list were cleared and handed back. -/
structure HandedBack (l : Nat) (rs : List Nat) (w w' : World) : Prop where
  booked : Booked w'
  polls : ∀ p ∈ (w.loops l).pollDatas.allItems blockSize,
    p ∈ (w'.loops l).pollDatas.allItems blockSize
  used : (w'.loops l).execDatas.usedItems blockSize =
    ((w.loops l).execDatas.usedItems blockSize).filter (· ∉ rs)
  freed : (w'.loops l).execDatas.freeItems blockSize =
    rs.reverse ++ (w.loops l).execDatas.freeItems blockSize
  elsewhere : ∀ l', l' ≠ l → (w'.loops l').execDatas.usedItems blockSize =
    (w.loops l').execDatas.usedItems blockSize
  cleared : ∀ r ∈ rs, w'.data l r = (w.data l r).cleared
  others : ∀ l' r', ¬ (l' = l ∧ r' ∈ rs) → Undisturbed l' r' w w'

section
variable {w w' : World} {l r : Nat}

/-- The items of `PollData` stay with the loop. -/
theorem Effect.polls (he : Effect l r w w') {p : Nat}
    (hp : p ∈ (w.loops l).pollDatas.allItems blockSize) :
    p ∈ (w'.loops l).pollDatas.allItems blockSize := by
  have hassigned : ∀ (w' : World) (d : ExecutorData),
      (w'.loops l).pollDatas = (w.loops l).pollDatas →
        p ∈ ((w'.setData l r d).loops l).pollDatas.allItems blockSize := by
    intro w' d hpolls
    rw [World.setData, World.setLoop_self, hpolls]
    exact hp
  have hnamed : ∀ name, p ∈ ((w.setLoop l
      { w.loops l with fileNameBuffer := name }).loops l).pollDatas.allItems blockSize := by
    intro name
    rw [World.setLoop_self]
    exact hp
  cases he with
  | bytes k hk => exact hp
  | data d hheld halone => exact hassigned w d rfl
  | cut => exact hnamed _
  | named name hname => exact hnamed _
  | added fd events q w' huse ha =>
    obtain ⟨_, pollDatas, k, hallocate, _, rfl⟩ := ha
    have hgrown := BlockStorage.allocate_allItems hallocate hp
    rw [World.rewatch_self]
    exact hgrown
  | refused w' hr =>
    obtain ⟨q, pollDatas, hallocate, rfl⟩ := hr
    rw [World.rewatch_self]
    dsimp only
    rw [BlockStorage.free_allItems]
    exact BlockStorage.allocate_allItems hallocate hp
  | edited fd events q k hq hk => exact hp
  | removed fd q w' hr =>
    obtain ⟨_, k, _, rfl⟩ := hr
    rw [World.rewatch_self]
    dsimp only
    rw [BlockStorage.free_allItems]
    exact hp
  | tried sock havail => exact hp
  | opened place fd huse havail hpoll hold halone => exact hassigned _ _ rfl
  | closed place hpoll => exact hassigned _ _ rfl

theorem Effects.polls (he : Effects l r w w') {p : Nat}
    (hp : p ∈ (w.loops l).pollDatas.allItems blockSize) :
    p ∈ (w'.loops l).pollDatas.allItems blockSize := by
  induction he with
  | refl => exact hp
  | tail _ hd ih => exact hd.polls ih

theorem TakenBack.polls (ht : TakenBack l r w w') {p : Nat}
    (hp : p ∈ (w.loops l).pollDatas.allItems blockSize) :
    p ∈ (w'.loops l).pollDatas.allItems blockSize := by
  obtain ⟨_, w1, hdid, _, rfl⟩ := ht
  rw [World.setLoop_self]
  exact Effects.polls hdid.effects hp

theorem TakenBack.lists (ht : TakenBack l r w w') (hb : Booked w) :
    (w'.loops l).execDatas.usedItems blockSize =
        ((w.loops l).execDatas.usedItems blockSize).filter (· ≠ r) ∧
      (w'.loops l).execDatas.freeItems blockSize =
        r :: (w.loops l).execDatas.freeItems blockSize ∧
      ∀ l', l' ≠ l → (w'.loops l').execDatas.usedItems blockSize =
        (w.loops l').execDatas.usedItems blockSize := by
  obtain ⟨_, w1, hdid, _, rfl⟩ := ht
  have hsame := (hdid.effects.kept hb).2
  obtain ⟨_, hused, hfree, _⟩ := (hdid.booked.loops l).execs.free_lists hdid.inUse
  rw [World.setLoop_self]
  refine ⟨hused.trans (by rw [hsame.used]), hfree.trans (by rw [hsame.free]), fun l' hl => ?_⟩
  rw [World.setLoop_other _ _ hl]
  exact hsame.used l'

theorem removeAll_handsBack (rs : List Nat) (hnodup : rs.Nodup) (hb : Booked w)
    (huse : ∀ r ∈ rs, w.InUse l r) :
    Ensures (removeAll l rs) w (fun _ w' => HandedBack l rs w w') := by
  induction rs generalizing w with
  | nil =>
    refine ensures_pure.mpr ⟨hb, fun _ hp => hp, ?_, rfl, fun _ _ => rfl, fun _ hr => ?_,
      fun _ _ _ => .refl hb⟩
    · exact (List.filter_eq_self.mpr (fun _ _ => by simp)).symm
    · cases hr
  | cons r rest ih =>
    simp only [removeAll, ensures_bind]
    obtain ⟨hnew, hrest⟩ := List.nodup_cons.mp hnodup
    refine (removeExecutorData_spec hb (huse r List.mem_cons_self)).mono (fun _ w1 ht => ?_)
    obtain ⟨hused, hfree, helse⟩ := ht.lists hb
    have huse1 : ∀ r' ∈ rest, w1.InUse l r' := fun r' hr' =>
      (ht.inUse hb l r').mpr ⟨huse r' (List.mem_cons_of_mem _ hr'),
        fun hboth => hnew (hboth.2 ▸ hr')⟩
    refine (ih hrest ht.booked huse1).mono (fun _ w2 h2 => ?_)
    refine ⟨h2.booked, fun p hp => h2.polls p (ht.polls hp), ?_, ?_,
      fun l' hl => (h2.elsewhere l' hl).trans (helse l' hl),
      fun r' hr' => ?_, fun l' r' hout => ?_⟩
    · rw [h2.used, hused, List.filter_filter]
      refine List.filter_congr (fun q _ => ?_)
      rw [← Bool.decide_and]
      refine decide_eq_decide.mpr ?_
      rw [List.mem_cons, not_or]
      exact and_comm
    · rw [h2.freed, hfree, List.reverse_cons, List.append_assoc]
      rfl
    · rcases List.mem_cons.mp hr' with rfl | hin
      · exact (h2.others l r' (fun hboth => hnew hboth.2)).data.trans ht.data_self
      · have hne : ¬ (l = l ∧ r' = r) := fun hboth => hnew (hboth.2 ▸ hin)
        rw [h2.cleared r' hin, (ht.undisturbed hb hne).data]
    · have hne : ¬ (l' = l ∧ r' = r) :=
        fun hboth => hout ⟨hboth.1, hboth.2 ▸ List.mem_cons_self⟩
      exact (ht.undisturbed hb hne).trans (h2.others l' r' (fun hboth =>
        hout ⟨hboth.1, List.mem_cons_of_mem _ hboth.2⟩))

theorem checkTimeout_handsBack {curMillis : Int} (hb : Booked w) :
    Ensures (checkTimeout l curMillis) w (fun _ w' => HandedBack l
      (((w.loops l).execDatas.usedItems blockSize).filter (w.Expired l curMillis ·)) w w') := by
  simp only [checkTimeout, ensures_bind, ensures_get]
  rw [enumerate_eq hb]
  simp only [ensures_bind, ensures_modifyLoop]
  refine (removeAll_handsBack _ ((usedItems_nodup (hb.loops l).execs).filter _) hb
    (fun r hr => List.mem_of_mem_filter hr)).mono (fun _ w1 h1 => ?_)
  have hb2 : Booked (w1.setLoop l { w1.loops l with lastCheckTimeoutMillis := curMillis }) :=
    h1.booked.setLoop rfl rfl rfl id
  have hdata : ∀ l' r', (w1.setLoop l
      { w1.loops l with lastCheckTimeoutMillis := curMillis }).data l' r' = w1.data l' r' := by
    intro l' r'
    refine World.setLoop_data _ _ (fun _ => ?_) l' r'
    rfl
  refine ⟨hb2, fun p hp => ?_, ?_, ?_, fun l' hl => ?_, fun r hr => ?_, fun l' r' hout => ?_⟩
  · rw [World.setLoop_self]
    exact h1.polls p hp
  · rw [World.setLoop_self]
    exact h1.used
  · rw [World.setLoop_self]
    exact h1.freed
  · rw [World.setLoop_other _ _ hl]
    exact h1.elsewhere l' hl
  · exact (hdata l r).trans (h1.cleared r hr)
  · exact (h1.others l' r' hout).trans (.ofBooks h1.booked hb2 (hdata l' r')
      (fun _ _ => ⟨fun _ => rfl, rfl⟩))

end

/-! ## Who is exempted -/

/-- The executor serves a client, or it is not removed for being idle. -/
def Exempts : Condition := fun d _ =>
  ∀ e, d.pExecutor = some e → ¬ e.Serves → d.removeOnTimeout = false

section
variable {ans : Answers} {w w' : World} {l r : Nat} {e : Executor} {a : Action}

theorem setPollDataOf_removeOnTimeout (d : ExecutorData) (fd : Int) (p : Nat) :
    (d.setPollDataOf fd p).removeOnTimeout = d.removeOnTimeout := by
  unfold ExecutorData.setPollDataOf
  split
  · rfl
  · split <;> rfl

/-- `up` of an executor that listens exempts it. -/
theorem serverUp_removeOnTimeout : Ensures (serverUp ans l r) w (fun _ w' =>
    (w'.data l r).removeOnTimeout = false) := by
  simp only [serverUp, ensures_bind, ensures_modifyData]
  refine socketListen_spec.mono (fun fd w2 hs => ?_)
  have h2 : (w2.data l r).removeOnTimeout = false := by
    rcases hs with ⟨_, rfl | ⟨sock, _, rfl⟩⟩ | ⟨_, rfl⟩
    · rw [World.setData_self]
    · rw [World.setKernel_data, World.setData_self]
    · rw [World.setKernel_data, World.setData_self]
  rw [ensures_ite, ensures_pure]
  refine ⟨fun _ => ?_, fun _ => ?_⟩
  · rw [World.setData_self]
    exact h2
  · rw [ensures_bind]
    refine addPollFd_spec.mono (fun added w3 hadd => ?_)
    simp only [ensures_ite, ensures_pure]
    have h3 : (w3.data l r).removeOnTimeout = false := by
      rcases hadd with ⟨_, p, ⟨_, _, _, _, _, rfl⟩⟩ | ⟨_, rfl | ⟨_, _, _, rfl⟩⟩
      · rw [World.rewatch_data_self, setPollDataOf_removeOnTimeout, World.setData_self]
        exact h2
      · rw [World.setData_self]
        exact h2
      · rw [World.rewatch_data_self, World.setData_self]
        exact h2
    exact ⟨fun _ => h3, fun _ => h3⟩

theorem exempts_of_serving {x : Executor} (hexec : (w.data l r).pExecutor = some x)
    (hserves : x.Serves) : w.Meets Exempts l r := by
  intro e he hnot
  rw [hexec] at he
  exact absurd hserves (Option.some.inj he ▸ hnot)

theorem exempts_upkeep : Upkeep Exempts (fun _ => True) where
  classless := fun d _ hnone e he => by
    rw [hnone] at he
    cases he
  stamped := fun _ _ _ h => h
  eventFd := fun _ _ _ hflag _ _ _ => hflag
  up := fun ans w l r e hdid halone hpoll hfd => by
    have hserver : w.fdAt l r .fd0 = -1 → Ensures (serverUp ans l r) w (fun result w' =>
        (∃ x, Did l r x w w') ∧ (result = 0 → w'.Meets Exempts l r)) := by
      intro hold
      refine ((did_serverUp hdid hpoll hold).and serverUp_removeOnTimeout).mono
        (fun result w' h => ?_)
      exact ⟨⟨_, h.1⟩, fun _ _ _ _ => h.2⟩
    cases e with
    | request =>
      exact (RequestExecutor.did_up w hdid).mono (fun _ w' h =>
        ⟨⟨_, h⟩, fun _ => exempts_of_serving h.exec trivial⟩)
    | sslRequest =>
      exact (SslRequestExecutor.did_up w hdid).mono (fun _ w' h =>
        ⟨⟨_, h⟩, fun _ => exempts_of_serving h.exec trivial⟩)
    | server => exact hserver (hfd (by decide))
    | sslServer => exact hserver (hfd (by decide))
    | _ => exact ensures_fail.mpr trivial
  process := fun call w l r hb huse hdata he hserves _ _ _ => by
    rw [← hdata] at he
    refine (process_serving hserves ⟨.refl, hb, huse, he⟩).mono (fun _ w' h _ => ?_)
    obtain ⟨e', hdid, hserves'⟩ := h
    exact Or.inl (exempts_of_serving hdid.exec hserves')

theorem step_exempts (h : Steady w ∧ w.AllMeet Exempts)
    (hstep : Run.guard SparesOpen World.step w a = some w') :
    Steady w' ∧ w'.AllMeet Exempts := by
  obtain ⟨hspares, hstep⟩ := Run.guard_some hstep
  exact step_allMeet exempts_upkeep h.1 h.2 hspares (fun _ _ => trivial) hstep

theorem exempts_start (parameters : ServerParameters) :
    World.AllMeet { parameters := parameters } Exempts :=
  fun _ _ => exempts_upkeep.classless _ _ rfl

end

/-! ## The sweep -/

/-- `checkTimeout` took away what has expired, once, and left everything else alone. -/
structure Swept (w : World) (l : Nat) (curMillis : Int) (w' : World) : Prop where
  removed : ∀ r, w.InUse l r → (¬ w'.InUse l r ↔ (w.data l r).removeOnTimeout = true ∧
    (w.parameters.executorTimeoutMillis < curMillis - (w.data l r).lastProcessTime ∨
      ExecutorData.MAX_TIME_TO_LIVE_MILLIS < curMillis - (w.data l r).createTime))
  order : (w'.loops l).execDatas.usedItems blockSize =
    ((w.loops l).execDatas.usedItems blockSize).filter (¬ w.Expired l curMillis ·)
  freed : (w'.loops l).execDatas.freeItems blockSize =
    (((w.loops l).execDatas.usedItems blockSize).filter (w.Expired l curMillis ·)).reverse ++
      (w.loops l).execDatas.freeItems blockSize
  once : ((w'.loops l).execDatas.freeItems blockSize).Nodup
  cleared : ∀ r, w.InUse l r → w.Expired l curMillis r → w'.data l r = (w.data l r).cleared
  released : ∀ r place p, w.Expired l curMillis r → w.pollDataAt l r place = some p →
    p ∉ w'.usedPolls l ∧ p ∈ (w'.loops l).pollDatas.freeItems blockSize ∧
      w'.kernel.epoll l (w.fdAt l r place) = none
  others : ∀ l' r', ¬ (l' = l ∧ w.InUse l r' ∧ w.Expired l curMillis r') →
    Undisturbed l' r' w w'
  elsewhere : ∀ l', l' ≠ l → (w'.loops l').execDatas.usedItems blockSize =
    (w.loops l').execDatas.usedItems blockSize
  exempt : ∀ r e, w.InUse l r → (w.data l r).pExecutor = some e →
    e = .newFd ∨ e = .server ∨ e = .sslServer → w'.InUse l r

section
variable {w w' : World} {l : Nat} {rs : List Nat} {curMillis : Int}

/-- What is watched afterwards was watched before, by an executor that was not on the list. -/
theorem HandedBack.watched (h : HandedBack l rs w w') {r p : Nat} {place : Place}
    (hp : w'.pollDataAt l r place = some p) :
    r ∉ rs ∧ w.pollDataAt l r place = some p ∧ w'.fdAt l r place = w.fdAt l r place := by
  have hnot : r ∉ rs := by
    intro hr
    unfold World.pollDataAt at hp
    rw [h.cleared r hr] at hp
    cases place <;> cases hp
  have hdata := (h.others l r (fun hboth => hnot hboth.2)).data
  unfold World.pollDataAt at hp
  unfold World.pollDataAt World.fdAt
  rw [hdata] at hp ⊢
  exact ⟨hnot, hp, rfl⟩

theorem HandedBack.swept (hb : Booked w) (hexempt : w.AllMeet Exempts)
    (h : HandedBack l
      (((w.loops l).execDatas.usedItems blockSize).filter (w.Expired l curMillis ·)) w w') :
    Swept w l curMillis w' := by
  generalize hrs : ((w.loops l).execDatas.usedItems blockSize).filter
    (w.Expired l curMillis ·) = rs at h
  have hmem : ∀ r, r ∈ rs ↔ w.InUse l r ∧ w.Expired l curMillis r := by
    intro r
    rw [← hrs, List.mem_filter, decide_eq_true_eq]
    exact Iff.rfl
  have hstays : ∀ r, w.InUse l r → (w'.InUse l r ↔ ¬ w.Expired l curMillis r) := by
    intro r huse
    unfold World.InUse
    rw [h.used, List.mem_filter, decide_eq_true_eq, hmem]
    exact ⟨fun hin hexpired => hin.2 ⟨huse, hexpired⟩, fun hnot => ⟨huse, fun hr => hnot hr.2⟩⟩
  refine ⟨fun r huse => ?_, ?_, ?_, ?_, fun r huse hexpired => ?_,
    fun r place p hexpired hp => ?_, fun l' r' hout => ?_, h.elsewhere,
    fun r e huse he hlistens => ?_⟩
  · rw [hstays r huse, not_not]
    exact Iff.rfl
  · rw [h.used]
    refine List.filter_congr (fun r hr => decide_eq_decide.mpr ?_)
    rw [hmem]
    exact ⟨fun hnot hexpired => hnot ⟨hr, hexpired⟩, fun hnot hboth => hnot hboth.2⟩
  · rw [hrs]
    exact h.freed
  · exact (List.nodup_append.mp (h.booked.loops l).execs.nodup).2.1
  · exact h.cleared r ((hmem r).mpr ⟨huse, hexpired⟩)
  · have hr : r ∈ rs := (hmem r).mpr ⟨hb.inUse hp, hexpired⟩
    have hunused : p ∉ w'.usedPolls l := by
      intro hused
      obtain ⟨r', place', hp'⟩ := (h.booked.loops l).item p hused
      obtain ⟨hnot, hbefore, _⟩ := h.watched hp'
      exact hnot ((hb.slot_unique hp hbefore).1 ▸ hr)
    refine ⟨hunused, ?_, ?_⟩
    · have hin := (hb.loops l).polls.mem_allItems.mpr (Or.inl ((hb.loops l).slot r place p hp).1)
      exact ((h.booked.loops l).polls.mem_allItems.mp (h.polls p hin)).resolve_left hunused
    · cases hreg : w'.kernel.epoll l (w.fdAt l r place) with
      | none => rfl
      | some reg =>
        obtain ⟨r', place', hp', hfd⟩ := (h.booked.loops l).entry _ reg hreg
        obtain ⟨hnot, _, hbefore⟩ := h.watched hp'
        obtain ⟨_, rfl, _⟩ := hb.apart l r place l r' place' (hb.watched_positive hp)
          (hfd.symm.trans hbefore)
        exact absurd hr hnot
  · refine h.others l' r' (fun hboth => hout ⟨hboth.1, (hmem r').mp hboth.2⟩)
  · refine (hstays r huse).mpr (fun hexpired => ?_)
    have hserves : ¬ e.Serves := by
      rcases hlistens with rfl | rfl | rfl
      · exact not_false
      · exact not_false
      · exact not_false
    have hflag := hexempt l r e he hserves
    rw [hexpired.1] at hflag
    cases hflag

/-- In every state that is reached without a second `close` of an open descriptor, `checkTimeout`
takes away exactly the executors that have expired. -/
theorem run_sweeps {parameters : ServerParameters} {actions : List Action}
    (hrun : Run.run (Run.guard SparesOpen World.step) { parameters := parameters } actions =
      some w) (l : Nat) (curMillis : Int) :
    ∃ w', checkTimeout l curMillis w = some (⟨⟩, w') ∧ Swept w l curMillis w' := by
  have hinv : Steady w ∧ w.AllMeet Exempts :=
    Run.run_invariant (fun _ _ _ h hs => step_exempts h hs)
      ⟨steady_start parameters, exempts_start parameters⟩ hrun
  have hb := hinv.1.ledger.booked
  have hreturns : Returns (checkTimeout l curMillis) w := checkTimeout_returns hb
  obtain ⟨_, w', hrun', hback⟩ := hreturns.ensures (checkTimeout_handsBack hb)
  exact ⟨w', hrun', hback.swept hb hinv.2⟩

end

/-- A client that has said nothing for twenty seconds. -/
theorem run_sweeps_idleClient : ∃ w,
    Run.run (Run.guard SparesOpen World.step) { parameters := { rootFolder := [47] } }
      [.init 0 { epollCreate := 3, eventfd := 4 }, .listenPort 0 .server { socket := 5 },
        .epollWait 0 [(5, EPOLLIN)] 0, .continue 0 { accept4 := 6 }, .continue 0 {}] = some w ∧
    w.InUse 0 2 ∧ w.Expired 0 20000 2 ∧
    ∃ w', checkTimeout 0 20000 w = some (⟨⟩, w') ∧ Swept w 0 20000 w' := by
  have hrun : (Run.run (Run.guard SparesOpen World.step) { parameters := { rootFolder := [47] } }
      [.init 0 { epollCreate := 3, eventfd := 4 }, .listenPort 0 .server { socket := 5 },
        .epollWait 0 [(5, EPOLLIN)] 0, .continue 0 { accept4 := 6 }, .continue 0 {}]).map
      (fun w => (decide (w.InUse 0 2), decide (w.Expired 0 20000 2))) = some (true, true) := by
    decide +kernel
  obtain ⟨w, hw, heq⟩ := Option.map_eq_some_iff.mp hrun
  obtain ⟨huse, hexpired⟩ := Prod.mk.inj heq
  exact ⟨w, hw, of_decide_eq_true huse, of_decide_eq_true hexpired, run_sweeps hw 0 20000⟩

/-- The loads by which the second loop is chosen. -/
def toSecond (l : Nat) : Int := if l = 1 then 0 else 1

/-- A client that is refused is closed twice, and the second `close` hits one that waits in the
queue under the same number.  The number is handed out again, so that two connections are set up
for it in the end, of which the first is idle. -/
def reusedNumber : List Action :=
  [.init 0 { epollCreate := 3, eventfd := 4 },
    .init 1 { epollCreate := 10, eventfd := 11 },
    .listenPort 0 .server { socket := 5 },
    .epollWait 0 [(5, EPOLLIN)] 0,
    .continue 0 { accept4 := 6, numOfPollFds := toSecond },
    .continue 0 {},
    .epollWait 1 [(11, EPOLLIN)] 0,
    .continue 1 {},
    .continue 1 { epollAdd := false },
    .epollWait 0 [(5, EPOLLIN)] 0,
    .continue 0 { accept4 := 6, numOfPollFds := toSecond },
    .continue 0 {},
    .continue 1 {},
    .epollWait 0 [(5, EPOLLIN)] 0,
    .continue 0 { accept4 := 6, numOfPollFds := toSecond },
    .continue 0 {},
    .continue 1 {},
    .continue 1 {},
    .continue 1 {},
    .epollWait 0 [(5, EPOLLIN)] 0,
    .continue 0 { accept4 := 6, numOfPollFds := toSecond },
    .continue 0 {},
    .continue 1 { milliseconds := 5000 },
    .continue 1 {},
    .continue 1 {}]

/-- Removing the idle connection takes the registration of the other one away. -/
theorem reusedNumber_notSwept : ∃ w,
    Run.run World.step { parameters := twoThreads } reusedNumber = some w ∧
      ¬ ∃ w', checkTimeout 1 12000 w = some (⟨⟩, w') ∧ Swept w 1 12000 w' := by
  have hrun : (Run.run World.step { parameters := twoThreads } reusedNumber).map (fun w =>
      (decide (w.Expired 1 12000 2), w.fdAt 1 2 .fd0, (w.kernel.epoll 1 6).isSome,
        (checkTimeout 1 12000 w).map (fun x => (x.2.kernel.epoll 1 6).isSome))) =
      some (false, 6, true, some false) := by
    decide +kernel
  obtain ⟨w, hw, heq⟩ := Option.map_eq_some_iff.mp hrun
  obtain ⟨hfresh, hfd, hbefore, hafter⟩ : w.Expired 1 12000 2 = False ∧ w.fdAt 1 2 .fd0 = 6 ∧
      (w.kernel.epoll 1 6).isSome = true ∧
        (checkTimeout 1 12000 w).map (fun x => (x.2.kernel.epoll 1 6).isSome) = some false := by
    simpa using heq
  refine ⟨w, hw, ?_⟩
  rintro ⟨w', hreturns, hswept⟩
  rw [hreturns] at hafter
  have hsame := (hswept.others 1 2 (fun hboth => hfresh ▸ hboth.2.2)).registered .fd0
    (by rw [hfd]; decide) 1
  rw [hfd] at hsame
  have hgone : (w'.kernel.epoll 1 6).isSome = false := Option.some.inj hafter
  rw [hsame, hbefore] at hgone
  cases hgone

end EpollHttp
