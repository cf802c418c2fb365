import EpollHttp.PollLoop.Shutdown

/-
How a thread goes on.

The place where a turn ends depends on the place where it began.  Only `destroy` leaves entries that
are pending alone, and it leaves no executor behind.
-/

namespace EpollHttp

open Program

/-- The loop holds nothing that `destroy` would close. -/
structure PollLoop.Bare (loop : PollLoop) : Prop where
  blocks : loop.execDatas.blocks = []
  epollFd : loop.epollFd = -1
  eventFd : loop.eventFd = -1

/-- `destroy` was called, and one `close` is left of it at most. -/
structure World.Vacated (w : World) (l : Nat) : Prop where
  bare : (w.loops l).Bare
  phase : (w.loops l).phase = .destroyed ∨ ∃ fd, (w.loops l).phase = .closingAgain fd .destroyed

/-- Where the thread of the loop `l` stands in front of its turn and behind it. -/
inductive Onward (l : Nat) (w w' : World) : Prop
  | drained (curMillis : Int) (event : EpollEvent) (pending : List EpollEvent)
      (h : (w.loops l).phase = .draining curMillis (event :: pending))
      (h' : (w'.loops l).phase = .draining curMillis pending)
  | checks (r : Nat) (curMillis : Int) (event : EpollEvent) (pending : List EpollEvent)
      (h : (w.loops l).phase = .draining curMillis (event :: pending))
      (h' : (w'.loops l).phase = .checkingNewFd r curMillis pending)
  | vacated (curMillis : Int) (event : EpollEvent) (pending : List EpollEvent)
      (h : (w.loops l).phase = .draining curMillis (event :: pending)) (h' : w'.Vacated l)
  | round (curMillis : Int) (h : (w.loops l).phase = .draining curMillis [])
      (h' : (w'.loops l).phase = .waiting)
  | checked (r : Nat) (curMillis : Int) (pending : List EpollEvent)
      (h : (w.loops l).phase = .checkingNewFd r curMillis pending)
      (h' : (w'.loops l).phase = .draining curMillis pending)
  | created (r : Nat) (curMillis : Int) (pending : List EpollEvent)
      (h : (w.loops l).phase = .checkingNewFd r curMillis pending)
      (h' : (w'.loops l).phase = .checkingNewFd r curMillis pending)
  | refused (r : Nat) (curMillis : Int) (pending : List EpollEvent) (fd : Int)
      (h : (w.loops l).phase = .checkingNewFd r curMillis pending)
      (h' : (w'.loops l).phase = .closingAgain fd (.checkingNewFd r curMillis pending))
  | closed (fd : Int) (next : Phase) (h : (w.loops l).phase = .closingAgain fd next)
      (h' : w'.loops l = { w.loops l with phase := next })

section
variable {ans : Answers} {w w' : World} {l r : Nat} {curMillis : Int} {event : EpollEvent}
variable {pending : List EpollEvent}

theorem setPhase_phase (w : World) (phase : Phase) :
    Ensures (setPhase l phase) w (fun _ w' => (w'.loops l).phase = phase) := by
  rw [setPhase, ensures_modifyLoop, World.setLoop_self]

theorem destroy_vacated (w : World) : Ensures (destroy l) w (fun _ w' => w'.Vacated l) := by
  rw [destroy, ensures_bind, ensures_getLoop, ensures_bind]
  intro _ w1 _
  rw [ensures_bind]
  intro _ w2 _
  rw [ensures_modifyLoop]
  constructor
  · rw [World.setLoop_self]
    exact ⟨rfl, rfl, rfl⟩
  · rw [World.setLoop_self]
    by_cases hpos : 0 < (w2.loops l).eventFd
    · exact Or.inr ⟨_, if_pos hpos⟩
    · exact Or.inl (if_neg hpos)

theorem finishProcess_phase (w : World) {result : ProcessResult} (hgo : result ≠ .shutdown) :
    Ensures (finishProcess l r curMillis pending result) w (fun _ w' =>
      (w'.loops l).phase = .draining curMillis pending) := by
  cases result with
  | removeExecutorOk =>
    rw [finishProcess, ensures_bind]
    exact fun _ w1 _ => setPhase_phase w1 _
  | removeExecutorError =>
    rw [finishProcess, ensures_bind]
    exact fun _ w1 _ => setPhase_phase w1 _
  | shutdown => exact absurd rfl hgo
  | ok =>
    rw [finishProcess, ensures_bind, ensures_getData, ensures_ite, ensures_bind, ensures_bind]
    exact ⟨fun _ _ w1 _ => setPhase_phase w1 _, fun _ _ w1 _ => setPhase_phase w1 _⟩

theorem drain_onward (hphase : (w.loops l).phase = .draining curMillis (event :: pending)) :
    Ensures (drain ans l curMillis event pending) w (fun _ w' => Onward l w w') := by
  have hdrains : ∀ w1, Ensures (setPhase l (.draining curMillis pending)) w1 (fun _ w' =>
      Onward l w w') := fun w1 =>
    (setPhase_phase w1 _).mono (fun _ _ h => .drained curMillis event pending hphase h)
  rw [drain, ensures_bind, ensures_get]
  cases w.delivery l event with
  | skipped => exact hdrains w
  | removed r =>
    rw [ensures_bind]
    exact fun _ w1 _ => hdrains w1
  | processed r fd =>
    dsimp only
    have hprocess : ∀ e : Executor, Ensures (do
        let result ← e.process ans l r fd event.events
        finishProcess l r curMillis pending result) w (fun _ w' => Onward l w w') := by
      intro e
      rw [ensures_bind]
      intro result w1 _
      by_cases hgo : result = .shutdown
      · subst hgo
        exact (destroy_vacated w1).mono (fun _ _ h => .vacated curMillis event pending hphase h)
      · exact (finishProcess_phase w1 hgo).mono (fun _ _ h =>
          .drained curMillis event pending hphase h)
    cases (w.data l r).pExecutor with
    | none => exact ensures_fail.mpr trivial
    | some e =>
      cases e with
      | newFd =>
        dsimp only
        rw [startCheckNewFd, ensures_ite]
        exact ⟨fun _ => (setPhase_phase w _).mono (fun _ _ h =>
            .checks r curMillis event pending hphase h),
          fun _ => (destroy_vacated w).mono (fun _ _ h =>
            .vacated curMillis event pending hphase h)⟩
      | _ => exact hprocess _

theorem checkNewFd_onward (h : Steady w)
    (hphase : (w.loops l).phase = .checkingNewFd r curMillis pending) :
    Ensures (checkNewFd ans l r curMillis pending) w (fun _ w' => Onward l w w') := by
  rw [checkNewFd, ensures_bind, ensures_getLoop]
  cases hqueue : (w.loops l).newFdsQueue with
  | nil =>
    exact (finishProcess_phase w ProcessResult.noConfusion).mono (fun _ _ h' =>
      .checked r curMillis pending hphase h')
  | cons d rest =>
    dsimp only
    rw [ensures_bind, ensures_modifyLoop, ensures_bind]
    refine (firstQueued_deeds h.ledger hqueue).mono (fun result w1 h1 => ?_)
    rw [ensures_when]
    exact ⟨fun _ => (setPhase_phase w1 _).mono (fun _ _ h' =>
        .refused r curMillis pending d.fd hphase h'),
      fun _ => .created r curMillis pending hphase (h1.1.phase.trans hphase)⟩

theorem endRound_onward (hphase : (w.loops l).phase = .draining curMillis []) :
    Ensures (endRound l curMillis) w (fun _ w' => Onward l w w') := by
  have hwaits : ∀ w1, Ensures (setPhase l .waiting) w1 (fun _ w' => Onward l w w') := fun w1 =>
    (setPhase_phase w1 _).mono (fun _ _ h => .round curMillis hphase h)
  rw [endRound, ensures_bind, ensures_get, ensures_ite, ensures_bind]
  exact ⟨fun _ _ w1 _ => hwaits w1, fun _ => hwaits w⟩

theorem continueLoop_onward (h : Steady w) :
    Ensures (continueLoop ans l) w (fun _ w' => Onward l w w') := by
  rw [continueLoop, ensures_bind, ensures_getLoop]
  cases hphase : (w.loops l).phase with
  | draining curMillis pending =>
    cases pending with
    | nil => exact endRound_onward hphase
    | cons event pending => exact drain_onward hphase
  | checkingNewFd r curMillis pending => exact checkNewFd_onward h hphase
  | closingAgain fd next =>
    simp only [setPhase, ensures_bind, ensures_close, ensures_modifyLoop]
    exact .closed fd next hphase (World.setLoop_self ..)
  | _ => exact ensures_fail.mpr trivial

theorem continueLoop_others (h : Steady w) :
    Ensures (continueLoop ans l) w (fun _ w' =>
      (∀ l', l' ≠ l → w.SameButQueue w' l') ∧ w'.parameters = w.parameters) := by
  refine (continueLoop_turn h).mono (fun _ w' ht => ?_)
  rcases ht with ht | ⟨fd, _, hc⟩
  · exact ⟨fun l' hl => ht.others hl, ht.parameters⟩
  · refine ⟨fun l' hl => ⟨_, hc.others hl⟩, ?_⟩
    obtain ⟨next, _, rfl⟩ := hc
    rfl

end

/-! ## Loops without a thread -/

/-- A `close` is made again by `destroy` and by `checkNewFd` only. -/
def Phase.Proper : Phase → Prop
  | .closingAgain _ .destroyed => True
  | .closingAgain _ (.checkingNewFd _ _ _) => True
  | .closingAgain _ _ => False
  | _ => True

/-- The thread of the loop has something to do. -/
def Phase.Busy (phase : Phase) : Prop := phase.Started ∧ phase.Live

/-- What holds of the loops beside the books: those that have nothing to do hold nothing. -/
structure Vacancies (w : World) : Prop where
  beyond : ∀ l, w.parameters.threadCount ≤ l → (w.loops l).phase = .created
  bare : ∀ l, ¬ (w.loops l).phase.Busy → (w.loops l).Bare
  proper : ∀ l, (w.loops l).phase.Proper

/-- A step of the loop `l` leaves that to be so. -/
structure KeepsVacancies (l : Nat) (w w' : World) : Prop where
  others : ∀ l', l' ≠ l → w.SameButQueue w' l'
  parameters : w'.parameters = w.parameters
  within : (w.loops l).phase = .created → l < w.parameters.threadCount
  bare : ¬ (w'.loops l).phase.Busy → (w'.loops l).Bare
  proper : (w'.loops l).phase.Proper

section
variable {ans : Answers} {w w' : World} {l : Nat} {a : Action}

theorem World.SameButQueue.phase (h : w.SameButQueue w' l) :
    (w'.loops l).phase = (w.loops l).phase := by
  obtain ⟨queue, heq⟩ := h
  rw [heq]

theorem World.SameButQueue.bare (h : w.SameButQueue w' l) (hbare : (w.loops l).Bare) :
    (w'.loops l).Bare := by
  obtain ⟨queue, heq⟩ := h
  rw [heq]
  exact ⟨hbare.blocks, hbare.epollFd, hbare.eventFd⟩

theorem KeepsVacancies.vacancies (hs : KeepsVacancies l w w') (h : Vacancies w) : Vacancies w' := by
  constructor
  · intro l' hl
    rw [hs.parameters] at hl
    have hcreated := h.beyond l' hl
    have hne : l' ≠ l := by
      rintro rfl
      exact absurd (hs.within hcreated) (Nat.not_lt.mpr hl)
    exact (hs.others l' hne).phase.trans hcreated
  · intro l' hidle
    by_cases heq : l' = l
    · subst heq
      exact hs.bare hidle
    · rw [(hs.others l' heq).phase] at hidle
      exact (hs.others l' heq).bare (h.bare l' hidle)
  · intro l'
    by_cases heq : l' = l
    · subst heq
      exact hs.proper
    · rw [(hs.others l' heq).phase]
      exact h.proper l'

theorem World.Vacated.proper (h : w.Vacated l) : (w.loops l).phase.Proper := by
  rcases h.phase with heq | ⟨fd, heq⟩
  · rw [heq]
    trivial
  · rw [heq]
    trivial

theorem World.Vacated.keepsVacancies (hv : w'.Vacated l) (hbegan : (w.loops l).phase ≠ .created)
    (hothers : ∀ l', l' ≠ l → w.SameButQueue w' l') (hparameters : w'.parameters = w.parameters) :
    KeepsVacancies l w w' :=
  ⟨hothers, hparameters, fun hcreated => absurd hcreated hbegan, fun _ => hv.bare, hv.proper⟩

theorem keepsVacancies_of_busy {p : Phase} (hbegan : (w.loops l).phase ≠ .created)
    (hnow : (w'.loops l).phase = p) (hbusy : p.Busy) (hproper : p.Proper)
    (hothers : ∀ l', l' ≠ l → w.SameButQueue w' l') (hparameters : w'.parameters = w.parameters) :
    KeepsVacancies l w w' := by
  refine ⟨hothers, hparameters, fun hcreated => absurd hcreated hbegan, fun hidle => ?_, ?_⟩
  · rw [hnow] at hidle
    exact absurd hbusy hidle
  · rw [hnow]
    exact hproper

theorem Onward.began (ho : Onward l w w') : (w.loops l).phase ≠ .created := by
  intro hcreated
  cases ho with
  | drained _ _ _ hat | checks _ _ _ _ hat | vacated _ _ _ hat | round _ hat
    | checked _ _ _ hat | created _ _ _ hat | refused _ _ _ _ hat | closed _ _ hat =>
    rw [hcreated] at hat
    cases hat

theorem Onward.keepsVacancies (ho : Onward l w w') (h : Vacancies w)
    (hothers : ∀ l', l' ≠ l → w.SameButQueue w' l') (hparameters : w'.parameters = w.parameters) :
    KeepsVacancies l w w' := by
  have hbegan := ho.began
  cases ho with
  | vacated _ _ _ _ hv => exact hv.keepsVacancies hbegan hothers hparameters
  | closed fd next hat hloop =>
    refine ⟨hothers, hparameters, fun hcreated => absurd hcreated hbegan, fun hidle => ?_, ?_⟩
    · rw [hloop] at hidle ⊢
      have hbare := h.bare l (by rw [hat]; exact hidle)
      exact ⟨hbare.blocks, hbare.epollFd, hbare.eventFd⟩
    · have hproper := h.proper l
      rw [hat] at hproper
      rw [hloop]
      cases next with
      | closingAgain fd' next => exact hproper.elim
      | _ => trivial
  | drained _ _ _ _ hnow | checks _ _ _ _ _ hnow | round _ _ hnow | checked _ _ _ _ hnow
    | created _ _ _ _ hnow | refused _ _ _ _ _ hnow =>
    exact keepsVacancies_of_busy hbegan hnow ⟨trivial, trivial⟩ trivial hothers hparameters

theorem step_vacancies (h : Steady w) (hs : Vacancies w) (hstep : w.step a = some w') :
    ∃ l, KeepsVacancies l w w' := by
  have hperform : Ensures a.perform w (fun _ w' => ∃ l, KeepsVacancies l w w') := by
    cases a with
    | init l ans =>
      simp only [Action.perform, ensures_bind, ensures_get]
      cases hphase : (w.loops l).phase with
      | created =>
        rw [ensures_ite]
        refine ⟨fun hl => ?_, fun _ => ensures_fail.mpr trivial⟩
        refine (init_begun h hphase).mono (fun _ w' hbegun => ⟨l, ?_⟩)
        have ht := hbegun.turn h hphase
        obtain ⟨w1, _, hend⟩ := hbegun
        refine ⟨fun l' hl' => ht.others hl', ht.parameters, fun _ => hl, fun hidle => ?_, ?_⟩
        · rcases hend with rfl | hw
          · rw [World.setLoop_self] at hidle
            exact absurd ⟨trivial, trivial⟩ hidle
          · obtain ⟨execDatas, hloop⟩ := hw.loop
            rw [hloop]
            exact ⟨rfl, rfl, rfl⟩
        · rcases hend with rfl | hw
          · rw [World.setLoop_self]
            trivial
          · obtain ⟨execDatas, hloop⟩ := hw.loop
            rw [hloop]
            dsimp only
            split
            · trivial
            · trivial
      | _ => exact ensures_fail.mpr trivial
    | listenPort l execType ans =>
      simp only [Action.perform, ensures_bind, ensures_getLoop]
      cases hphase : (w.loops l).phase with
      | waiting =>
        refine (listenPort_spec h.ledger.booked).mono (fun _ w' hc => ⟨l, ?_⟩)
        obtain ⟨result, hc⟩ := hc
        have hd := hc.deeds (fun r w1 ha => ha.deeds_none h.ledger.booked)
        refine keepsVacancies_of_busy ?_ (hd.phase.trans hphase) ⟨trivial, trivial⟩ trivial
          (fun l' hl' => hd.others hl') hd.parameters
        rw [hphase]
        exact Phase.noConfusion
      | _ => exact ensures_fail.mpr trivial
    | epollWait l ready curMillis =>
      simp only [Action.perform, ensures_bind, ensures_getLoop]
      cases hphase : (w.loops l).phase with
      | waiting =>
        simp only [waitForEvents, ensures_bind, ensures_get]
        cases w.batch l ready with
        | none => exact ensures_fail.mpr trivial
        | some pending =>
          dsimp only
          rw [setPhase, ensures_modifyLoop]
          refine ⟨l, keepsVacancies_of_busy (p := .draining curMillis pending) ?_ ?_
            ⟨trivial, trivial⟩ trivial (fun l' hl' => ⟨_, World.setLoop_other _ _ hl' _⟩) rfl⟩
          · rw [hphase]
            exact Phase.noConfusion
          · rw [World.setLoop_self]
      | _ => exact ensures_fail.mpr trivial
    | stop l =>
      simp only [Action.perform, ensures_bind, ensures_getLoop]
      cases hphase : (w.loops l).phase with
      | waiting =>
        refine ((destroy_vacated w).and (destroy_turn h.ledger (.done w none))).mono
          (fun _ w' hw => ⟨l, hw.1.keepsVacancies ?_ (fun l' hl' => hw.2.others hl')
            hw.2.parameters⟩)
        rw [hphase]
        exact Phase.noConfusion
      | _ => exact ensures_fail.mpr trivial
    | «continue» l ans =>
      exact ((continueLoop_onward h).and (continueLoop_others h)).mono (fun _ w' hw =>
        ⟨l, hw.1.keepsVacancies hs hw.2.1 hw.2.2⟩)
  obtain ⟨⟨_, w1⟩, hrun, rfl⟩ := Option.map_eq_some_iff.mp hstep
  exact hperform _ _ hrun

theorem PollLoop.Bare.idle (h : (w.loops l).Bare) (hb : Booked w) (r : Nat) : ¬ w.InUse l r := by
  intro hr
  have hin := ((hb.loops l).execs.items r).mp (List.mem_append_left _ hr)
  unfold BlockStorage.allItems at hin
  rw [h.blocks] at hin
  cases hin

theorem vacancies_start (parameters : ServerParameters) : Vacancies { parameters := parameters } :=
  ⟨fun _ _ => rfl, fun _ _ => ⟨rfl, rfl, rfl⟩, fun _ => trivial⟩

theorem step_keeps (h : Steady w) (hv : Vacancies w)
    (hstep : Run.guard SparesOpen World.step w a = some w') :
    Steady w' ∧ Vacancies w' ∧ w'.parameters = w.parameters := by
  obtain ⟨l, hkeeps⟩ := step_vacancies h hv (Run.guard_some hstep).2
  exact ⟨step_steady h hstep, hkeeps.vacancies hv, hkeeps.parameters⟩

end

theorem run_vacancies {parameters : ServerParameters} {actions : List Action} {w : World}
    (hrun : Run.run (Run.guard SparesOpen World.step) { parameters := parameters } actions =
      some w) : Steady w ∧ Vacancies w ∧ w.parameters = parameters := by
  refine Run.run_invariant (P := fun w => Steady w ∧ Vacancies w ∧ w.parameters = parameters) ?_
    ⟨steady_start parameters, vacancies_start parameters, rfl⟩ hrun
  rintro w a w' ⟨hsteady, hvacancies, hparameters⟩ hstep
  obtain ⟨hsteady', hvacancies', hsame⟩ := step_keeps hsteady hvacancies hstep
  exact ⟨hsteady', hvacancies', hsame.trans hparameters⟩

/-! ## Queues that are served -/

/-- Whether the thread is in `checkNewFd`. -/
def Phase.checks : Phase → Bool
  | .checkingNewFd _ _ _ => true
  | _ => false

/-- What `createRequestExecutorInternal` returns for the descriptor that a step takes out of the
queue. -/
def Action.taken (a : Action) (w : World) : Option Int :=
  match a with
  | .continue l ans =>
    match (w.loops l).newFdsQueue with
    | [] => none
    | fdData :: rest =>
      if (w.loops l).phase.checks then
        (createRequestExecutorInternal ans l fdData.fd fdData.execType
          (w.setLoop l { w.loops l with newFdsQueue := rest })).map Prod.fst
      else none
  | _ => none

/-- The descriptor that `destroy` closes for the second time. -/
def Action.closesEventFd (a : Action) (w : World) : Option Int :=
  match a with
  | .continue l _ =>
    match (w.loops l).phase with
    | .closingAgain fd .destroyed => some fd
    | _ => none
  | _ => none

/-- Every descriptor in the queue becomes a connection, and no number of an `eventFd` is handed to
a client before the loop has ended. -/
def ServesQueue (w : World) (a : Action) : Prop :=
  (∀ result ∈ a.taken w, result = 0) ∧
    ∀ fd ∈ a.closesEventFd w, w.kernel.openId? fd = none ∧
      ∀ id ∈ (w.kernel.table fd).id?, w.kernel.accepted id = false

instance (w : World) (a : Action) : Decidable (ServesQueue w a) :=
  inferInstanceAs (Decidable ((∀ result ∈ a.taken w, _) ∧ ∀ fd ∈ a.closesEventFd w, _ ∧ _))

/-- The thread is about to close a client that was refused. -/
def Phase.Refuses : Phase → Prop
  | .closingAgain _ (.checkingNewFd _ _ _) => True
  | _ => False

section
variable {ans : Answers} {w w' : World} {l r : Nat} {curMillis : Int} {pending : List EpollEvent}
variable {a : Action}

theorem World.Vacated.not_refuses (h : w.Vacated l) : ¬ (w.loops l).phase.Refuses := by
  rcases h.phase with heq | ⟨fd, heq⟩
  · rw [heq]
    exact not_false
  · rw [heq]
    exact not_false

theorem checkNewFd_serves (h : Steady w)
    (hphase : (w.loops l).phase = .checkingNewFd r curMillis pending)
    (hserved : ∀ result ∈ (Action.continue l ans).taken w, result = 0) :
    Ensures (checkNewFd ans l r curMillis pending) w (fun _ w' =>
      ¬ (w'.loops l).phase.Refuses) := by
  rw [checkNewFd, ensures_bind, ensures_getLoop]
  cases hqueue : (w.loops l).newFdsQueue with
  | nil =>
    refine (finishProcess_phase w ProcessResult.noConfusion).mono (fun _ _ h' => ?_)
    rw [h']
    exact not_false
  | cons d rest =>
    dsimp only
    rw [ensures_bind, ensures_modifyLoop, ensures_bind]
    intro result w1 hrun
    have hzero : result = 0 := by
      refine hserved result ?_
      unfold Action.taken
      simp only [hqueue]
      rw [if_pos (by rw [hphase]; rfl)]
      exact Option.map_eq_some_iff.mpr ⟨_, hrun, rfl⟩
    have hd := (firstQueued_deeds h.ledger hqueue _ _ hrun).1
    rw [ensures_when]
    refine ⟨fun hne => absurd hzero hne, fun _ => ?_⟩
    rw [hd.phase, hphase]
    exact not_false

theorem continueLoop_serves (h : Steady w) (hv : Vacancies w)
    (hserved : ∀ result ∈ (Action.continue l ans).taken w, result = 0)
    (hrefuses : ¬ (w.loops l).phase.Refuses) :
    Ensures (continueLoop ans l) w (fun _ w' => ¬ (w'.loops l).phase.Refuses) := by
  by_cases hchecks : ∃ r curMillis pending,
      (w.loops l).phase = .checkingNewFd r curMillis pending
  · obtain ⟨r, curMillis, pending, hphase⟩ := hchecks
    rw [continueLoop, ensures_bind, ensures_getLoop, hphase]
    exact checkNewFd_serves h hphase hserved
  · refine (continueLoop_onward h).mono (fun _ w' ho => ?_)
    cases ho with
    | vacated _ _ _ _ hvacated => exact hvacated.not_refuses
    | refused r curMillis pending _ hat _ => exact absurd ⟨r, curMillis, pending, hat⟩ hchecks
    | closed fd next hat hloop =>
      have hproper := hv.proper l
      rw [hat] at hproper hrefuses
      rw [hloop]
      cases next with
      | checkingNewFd => exact absurd trivial hrefuses
      | closingAgain fd' next => exact hproper.elim
      | _ => exact not_false
    | drained _ _ _ _ hnow | checks _ _ _ _ _ hnow | round _ _ hnow | checked _ _ _ _ hnow
      | created _ _ _ _ hnow =>
      rw [hnow]
      exact not_false

/-- No client is refused where the queue is served. -/
theorem step_serves (h : Steady w) (hv : Vacancies w) (hserved : ServesQueue w a)
    (hrefuses : ∀ l, ¬ (w.loops l).phase.Refuses) (hstep : w.step a = some w') :
    ∀ l, ¬ (w'.loops l).phase.Refuses := by
  have hothers : ∀ {w' : World} {l : Nat}, (∀ l', l' ≠ l → w.SameButQueue w' l') →
      ¬ (w'.loops l).phase.Refuses → ∀ l', ¬ (w'.loops l').phase.Refuses := by
    intro w' l hsame hself l'
    by_cases hl : l' = l
    · exact hl ▸ hself
    · rw [(hsame l' hl).phase]
      exact hrefuses l'
  have hperform : Ensures a.perform w (fun _ w' => ∀ l, ¬ (w'.loops l).phase.Refuses) := by
    cases a with
    | init l ans =>
      simp only [Action.perform, ensures_bind, ensures_get]
      cases hphase : (w.loops l).phase with
      | created =>
        rw [ensures_ite]
        refine ⟨fun _ => (init_begun h hphase).mono (fun _ w' hbegun => ?_),
          fun _ => ensures_fail.mpr trivial⟩
        refine hothers (fun l' hl' => (hbegun.turn h hphase).others hl') ?_
        obtain ⟨w1, _, rfl | hw⟩ := hbegun
        · rw [World.setLoop_self]
          exact not_false
        · obtain ⟨execDatas, hloop⟩ := hw.loop
          rw [hloop]
          dsimp only
          split
          · exact not_false
          · exact not_false
      | _ => exact ensures_fail.mpr trivial
    | listenPort l execType ans =>
      simp only [Action.perform, ensures_bind, ensures_getLoop]
      cases hphase : (w.loops l).phase with
      | waiting =>
        refine (listenPort_spec h.ledger.booked).mono (fun _ w' hc => ?_)
        obtain ⟨result, hc⟩ := hc
        have hd := hc.deeds (fun r w1 ha => ha.deeds_none h.ledger.booked)
        refine hothers (fun l' hl' => hd.others hl') ?_
        rw [hd.phase, hphase]
        exact not_false
      | _ => exact ensures_fail.mpr trivial
    | epollWait l ready curMillis =>
      simp only [Action.perform, ensures_bind, ensures_getLoop]
      cases hphase : (w.loops l).phase with
      | waiting =>
        simp only [waitForEvents, ensures_bind, ensures_get]
        cases w.batch l ready with
        | none => exact ensures_fail.mpr trivial
        | some pending =>
          dsimp only
          rw [setPhase, ensures_modifyLoop]
          refine hothers (fun l' hl' => ⟨_, World.setLoop_other _ _ hl' _⟩) ?_
          rw [World.setLoop_self]
          exact not_false
      | _ => exact ensures_fail.mpr trivial
    | stop l =>
      simp only [Action.perform, ensures_bind, ensures_getLoop]
      cases hphase : (w.loops l).phase with
      | waiting =>
        exact ((destroy_vacated w).and (destroy_turn h.ledger (.done w none))).mono
          (fun _ w' hw => hothers (fun l' hl' => hw.2.others hl') hw.1.not_refuses)
      | _ => exact ensures_fail.mpr trivial
    | «continue» l ans =>
      exact ((continueLoop_serves h hv hserved.1 (hrefuses l)).and (continueLoop_others h)).mono
        (fun _ w' hw => hothers hw.2.1 hw.1)
  obtain ⟨⟨_, w1⟩, hrun, rfl⟩ := Option.map_eq_some_iff.mp hstep
  exact hperform _ _ hrun

/-- What is closed again is an `eventFd`. -/
theorem ServesQueue.spares (hserved : ServesQueue w a) (hv : Vacancies w)
    (hrefuses : ∀ l, ¬ (w.loops l).phase.Refuses) : SparesClients w a := by
  intro fd hagain
  refine hserved.2 fd ?_
  cases a with
  | «continue» l ans =>
    have hproper := hv.proper l
    have hnot := hrefuses l
    simp only [Action.closesAgain, Action.closesEventFd] at hagain ⊢
    cases hphase : (w.loops l).phase with
    | closingAgain fd' next =>
      rw [hphase] at hproper hnot hagain
      cases next with
      | destroyed => exact hagain
      | checkingNewFd => exact absurd trivial hnot
      | _ => exact hproper.elim
    | _ =>
      rw [hphase] at hagain
      cases hagain
  | _ => cases hagain

/-- In a run that serves the queues every step spares the clients. -/
theorem run_serves_spares {parameters : ServerParameters} {actions : List Action}
    (hrun : Run.run (Run.guard ServesQueue World.step) { parameters := parameters } actions =
      some w) :
    Run.run (Run.guard SparesClients World.step) { parameters := parameters } actions =
      some w := by
  refine Run.run_mono
    (P := fun w => Steady w ∧ Vacancies w ∧ ∀ l, ¬ (w.loops l).phase.Refuses)
    (fun w a w' h hstep => ?_)
    ⟨steady_start parameters, vacancies_start parameters, fun _ => not_false⟩ hrun
  obtain ⟨hsteady, hv, hrefuses⟩ := h
  obtain ⟨hserved, hstep⟩ := Run.guard_some hstep
  have hspares := hserved.spares hv hrefuses
  obtain ⟨hsteady', hv', _⟩ := step_keeps hsteady hv
    (Run.guard_of (fun fd hagain => (hspares fd hagain).1) hstep)
  exact ⟨Run.guard_of hspares hstep, hsteady', hv', step_serves hsteady hv hserved hrefuses hstep⟩

end

end EpollHttp
