import EpollHttp.PollLoop.Conduct

/-
The operations of `PollLoop`, called in any order.

They are called with any arguments, `process` also after it asked for the removal of the executor;
`destroy` is not among them.  Each is a turn of one loop, and a `close` that closes nothing may
follow it.
-/

namespace EpollHttp

open Program

instance (w : World) (l r : Nat) : Decidable (w.InUse l r) :=
  inferInstanceAs (Decidable (_ ∈ _))

inductive Operation
  | init (l : Nat) (ans : Answers)
  | listenPort (l : Nat) (execType : ExecutorType) (ans : Answers)
  /-- `createRequestExecutorInternal` for a descriptor that `accept4` returns. -/
  | accept (l : Nat) (ssl : Bool) (ans : Answers)
  /-- `checkNewFd` for the first descriptor of the queue. -/
  | takeFromQueue (l : Nat) (ans : Answers)
  | process (l r : Nat) (fd : Int) (events : Nat) (ans : Answers)
  | addPollFd (l r : Nat) (fd : Int) (events : Nat) (ans : Answers)
  | editPollFd (l r : Nat) (fd : Int) (events : Nat) (ans : Answers)
  | removePollFd (l r : Nat) (fd : Int)
  | closeFd (l r : Nat) (fd : Int)
  | removeExecutorData (l r : Nat)
  | checkTimeout (l : Nat) (curMillis : Int)

namespace Operation

/-- The loop was initialised. -/
def onLoop {α : Type} (l : Nat) (m : Prog α) : Prog PUnit := do
  let loop ← getLoop l
  match loop.phase with
  | .waiting => do
    let _ ← m
    return ⟨⟩
  | _ => fail

/-- The call is made for data that is in use. -/
def onData {α : Type} (l r : Nat) (m : Prog α) : Prog PUnit := do
  let w ← get
  if w.InUse l r then onLoop l m else fail

/-- An `init` that succeeds. -/
def initLoop (ans : Answers) (l : Nat) : Prog PUnit := do
  let loop ← getLoop l
  match loop.phase with
  | .created => do
    EpollHttp.init ans l
    onLoop l (return ⟨⟩ : Prog PUnit)
  | _ => fail

def acceptClient (ans : Answers) (l : Nat) (ssl : Bool) : Prog PUnit := do
  let fd ← newDescriptor ans.accept4 true
  if fd < 0 then return ⟨⟩
  else do
    let _ ← createRequestExecutorInternal ans l fd (if ssl then .requestSsl else .request)
    return ⟨⟩

/-- One round of the loop of `checkNewFd`, up to its `close`. -/
def startTake (ans : Answers) (l : Nat) : Prog PUnit := do
  let loop ← getLoop l
  match loop.newFdsQueue with
  | [] => return ⟨⟩
  | fdData :: rest => do
    modifyLoop l (fun loop => { loop with newFdsQueue := rest })
    let result ← createRequestExecutorInternal ans l fdData.fd fdData.execType
    when (result ≠ 0) (setPhase l (.closingAgain fdData.fd .waiting))

/-- The `close` that the loop stands in front of, if there is one. -/
def closeAgain (l : Nat) : Prog PUnit := do
  let loop ← getLoop l
  match loop.phase with
  | .closingAgain fd next => do
    close fd
    setPhase l next
  | _ => return ⟨⟩

/-- One round of the loop of `checkNewFd`, with no other thread in between. -/
def takeClient (ans : Answers) (l : Nat) : Prog PUnit := do
  startTake ans l
  closeAgain l

/-- The virtual `process` of the executor that the data names.  Of `NewFdExecutor::process` it is
`eventfd_read`; the rounds of `checkNewFd` that follow are operations of their own. -/
def callProcess (ans : Answers) (l r : Nat) (fd : Int) (events : Nat) : Prog PUnit := do
  let data ← getData l r
  match data.pExecutor with
  | none => fail
  | some .newFd => return ⟨⟩
  | some e => do
    let _ ← e.process ans l r fd events
    return ⟨⟩

def perform : Operation → Prog PUnit
  | .init l ans => initLoop ans l
  | .listenPort l execType ans => onLoop l (EpollHttp.listenPort ans l execType)
  | .accept l ssl ans => onLoop l (acceptClient ans l ssl)
  | .takeFromQueue l ans => onLoop l (takeClient ans l)
  | .process l r fd events ans => onData l r (callProcess ans l r fd events)
  | .addPollFd l r fd events ans => onData l r (EpollHttp.addPollFd ans l r fd events)
  | .editPollFd l r fd events ans => onData l r (EpollHttp.editPollFd ans l r fd events)
  | .removePollFd l r fd => onData l r (EpollHttp.removePollFd l r fd)
  | .closeFd l r fd => onData l r (EpollHttp.closeFd l r fd)
  | .removeExecutorData l r => onData l r (EpollHttp.removeExecutorData l r)
  | .checkTimeout l curMillis => onLoop l (EpollHttp.checkTimeout l curMillis)

def step (w : World) (op : Operation) : Option World := (op.perform w).map Prod.snd

/-- The loop that is called. -/
def loop : Operation → Nat
  | .init l _ => l
  | .listenPort l _ _ => l
  | .accept l _ _ => l
  | .takeFromQueue l _ => l
  | .process l _ _ _ _ => l
  | .addPollFd l _ _ _ _ => l
  | .editPollFd l _ _ _ _ => l
  | .removePollFd l _ _ => l
  | .closeFd l _ _ => l
  | .removeExecutorData l _ => l
  | .checkTimeout l _ => l

def initialises : Operation → Bool
  | .init _ _ => true
  | _ => false

end Operation

/-! ## Beginnings -/

theorem booked_start (parameters : ServerParameters) : Booked { parameters := parameters } := by
  have hdata : ∀ l r, ({ parameters := parameters } : World).data l r = {} := fun _ _ => rfl
  have hfd : ∀ l r place, ({ parameters := parameters } : World).fdAt l r place = -1 := by
    intro l r place
    cases place <;> rfl
  have hpoll : ∀ l r place, ({ parameters := parameters } : World).pollDataAt l r place = none := by
    intro l r place
    cases place <;> rfl
  refine ⟨fun l => ⟨BlockStorage.sound_empty, BlockStorage.sound_empty,
    fun r _ place => ⟨hfd l r place, hpoll l r place⟩, fun r place p hp => ?_, fun p hp => ?_,
    fun fd reg hreg => ?_, fun r hreq => ⟨rfl, rfl⟩, fun _ => rfl, fun _ p _ => rfl⟩,
    fun l r place hpos => ?_, fun l r place l' r' place' hpos _ => ?_, fun l r place => ?_,
    fun fd _ => rfl, fun l fd hreg => absurd rfl hreg⟩
  · rw [hpoll] at hp
    cases hp
  · have hnil : ({ parameters := parameters } : World).usedPolls l = [] := rfl
    rw [hnil] at hp
    cases hp
  · cases hreg
  · rw [hfd] at hpos
    exact absurd hpos (by decide)
  · rw [hfd] at hpos
    exact absurd hpos (by decide)
  · exact Or.inl (hfd l r place)

theorem queueBooked_start (parameters : ServerParameters) :
    QueueBooked { parameters := parameters } :=
  ⟨fun _ _ hd => (nomatch hd), fun _ _ hd => (nomatch hd), fun _ => List.nodup_nil,
    fun _ _ _ _ hd => (nomatch hd)⟩

theorem ledger_start (parameters : ServerParameters) :
    Ledger none { parameters := parameters } :=
  ⟨booked_start parameters, queueBooked_start parameters, fun _ _ _ hfd => (nomatch hfd),
    (fun _ hhand => nomatch hhand), fun _ hpos => absurd hpos (by decide : ¬ (0 : Int) < -1),
    fun _ _ hpos => absurd hpos (by decide : ¬ (0 : Int) < -1), fun _ _ hfd => (nomatch hfd)⟩

theorem steady_start (parameters : ServerParameters) : Steady { parameters := parameters } :=
  ⟨ledger_start parameters, fun _ _ => ⟨rfl, rfl⟩, fun _ _ hr => hr.elim⟩

/-! ## A connection that is refused -/

/-- The descriptor of the client is that of the executor. -/
def World.Serves (l r : Nat) (fd : Int) (w : World) : Prop := w.fdAt l r .fd0 = fd

section
variable {ans : Answers} {w w' : World} {l r : Nat} {fd : Int}

theorem serves_modifyData {f : ExecutorData → ExecutorData} (hf : ∀ d, (f d).fd0 = d.fd0) :
    Preserves (World.Serves l r fd) (modifyData l r f) := by
  intro w h
  rw [ensures_modifyData, World.Serves, World.setData_fdAt, if_pos ⟨rfl, rfl⟩]
  exact (hf _).trans h

theorem serves_addPollFd {fd' : Int} {events : Nat} :
    Preserves (World.Serves l r fd) (addPollFd ans l r fd' events) := by
  intro w h
  refine addPollFd_spec.mono (fun _ w' hadd => ?_)
  rcases hadd with ⟨_, p, ha⟩ | ⟨_, rfl | hr⟩
  · obtain ⟨_, _, _, _, hd⟩ := ha.place
    obtain ⟨_, pollDatas, k, _, _, rfl⟩ := ha
    rw [World.Serves, World.rewatch_fdAt, if_pos ⟨rfl, rfl⟩]
    exact (hd .fd0).1.trans h
  · exact h
  · obtain ⟨p, pollDatas, _, rfl⟩ := hr
    rw [World.Serves, World.rewatch_fdAt, if_pos ⟨rfl, rfl⟩]
    exact h

theorem serves_getData : Preserves (World.Serves l r fd) (getData l r) :=
  fun _ h => ensures_getData.mpr h

theorem RequestExecutor.serves_up : Preserves (World.Serves l r fd) (RequestExecutor.up ans l r) :=
  .bind (serves_modifyData (fun _ => rfl)) (fun _ => .bind serves_getData (fun _ =>
    .bind serves_addPollFd (fun _ => .ite .pure (.bind (serves_modifyData (fun _ => rfl))
      (fun _ => .pure)))))

theorem SslRequestExecutor.serves_up :
    Preserves (World.Serves l r fd) (SslRequestExecutor.up ans l r) := by
  have hwatch : ∀ events, Preserves (World.Serves l r fd) (watchHandshake ans l r true events) :=
    fun events => .bind serves_getData (fun _ => .bind serves_addPollFd (fun _ => .pure))
  have hhandle : Preserves (World.Serves l r fd) (handleHandshake ans l r true) := by
    unfold handleHandshake
    cases ans.sslDoHandshake with
    | none => exact .pure
    | some error =>
      cases error with
      | wantWrite => exact hwatch EPOLLOUT
      | wantRead => exact hwatch EPOLLIN
      | other => exact .pure
  refine .bind (serves_modifyData (fun _ => rfl)) (fun _ => .bind ?_ (fun _ => .ite .pure ?_))
  · exact .ite (.bind (serves_modifyData (fun _ => rfl)) (fun _ => .pure)) .pure
  · refine .bind hhandle (fun result => ?_)
    cases result with
    | ok =>
      exact .bind serves_getData (fun _ => .bind serves_addPollFd (fun _ => .ite .pure
        (.bind (serves_modifyData (fun _ => rfl)) (fun _ => .pure))))
    | again => exact .bind (serves_modifyData (fun _ => rfl)) (fun _ => .pure)
    | error => exact .pure

/-- `down` closes the client. -/
theorem removeExecutorData_closes (hb : Booked w) (huse : w.InUse l r)
    (hserves : w.Serves l r fd) (hpos : 0 < fd) :
    Ensures (removeExecutorData l r) w (fun _ w' => w'.kernel.openId? fd = none) := by
  have h0 : Did l r (w.data l r).pExecutor w w := ⟨.refl, hb, huse, rfl⟩
  have hkept : ∀ (k : Kernel) (fd' : Int), k.openId? fd = none →
      (k.closePositive fd').openId? fd = none := by
    intro k fd' hclosed
    unfold Kernel.closePositive
    split
    · by_cases heq : fd = fd'
      · rw [heq, Kernel.openId?_close_self]
      · rw [Kernel.openId?_close_of_ne heq]
        exact hclosed
    · exact hclosed
  have hdown : ∀ w1, w1.Serves l r fd → Ensures (down l r) w1 (fun _ w2 =>
      w2.kernel.openId? fd = none) := by
    intro w1 h1
    rw [ensures_down, World.setData_kernel, World.setKernel_kernel, h1]
    refine hkept _ _ (hkept _ _ (hkept _ _ ?_))
    rw [Kernel.closePositive, if_pos hpos, Kernel.openId?_close_self]
  simp only [removeExecutorData, ensures_bind, ensures_getData, ensures_when, freeExecData,
    ensures_modifyLoop, ensures_pure]
  refine ⟨fun h0slot => ?_, fun _ => ⟨fun h1slot => ?_, fun _ => hdown w hserves⟩⟩
  · refine (removePollFd_watched .fd0 h0 h0slot).mono (fun _ w1 h1 => ?_)
    obtain ⟨_, hdid, _, hfd, _⟩ := h1
    refine ⟨fun h1slot => ?_, fun _ => hdown w1 ((hfd .fd0).trans hserves)⟩
    refine (removePollFd_watched .fd1 hdid h1slot).mono (fun _ w2 h2 => ?_)
    obtain ⟨_, _, _, hfd2, _⟩ := h2
    exact hdown w2 ((hfd2 .fd0).trans ((hfd .fd0).trans hserves))
  · refine (removePollFd_watched .fd1 h0 h1slot).mono (fun _ w1 h1 => ?_)
    obtain ⟨_, _, _, hfd, _⟩ := h1
    exact hdown w1 ((hfd .fd0).trans hserves)

theorem createRequestExecutorInternal_closes {execType : ExecutorType} (hb : Booked w)
    (htype : execType.Requests) (hopen : w.kernel.openId? fd ≠ none) (hun : w.Unheld fd) :
    Ensures (createRequestExecutorInternal ans l fd execType) w (fun result w' =>
      result ≠ 0 → w'.kernel.openId? fd = none) := by
  rw [createRequestExecutorInternal, ensures_bind]
  refine createExecutorData_spec (fun r w1 hh => ?_)
  rw [ensures_bind, ensures_modifyData, World.setData_self, World.setData_setData, ensures_bind]
  have ha : Adopted w l r fd (PollLoop.getExecutor execType) (w1.setData l r { w1.data l r with
      createTime := ans.milliseconds, lastProcessTime := ans.milliseconds,
      pExecutor := some (PollLoop.getExecutor execType), fd0 := fd }) :=
    ⟨w1, ans.milliseconds, hh, rfl⟩
  obtain ⟨hdid, _, _, hfd⟩ := ha.did hb (Or.inr ⟨hopen, hun⟩)
  refine Ensures.mono (R := fun _ w2 => Booked w2 ∧ w2.InUse l r ∧ w2.Serves l r fd) ?_
    (fun result w2 h2 => ?_)
  · rcases htype with rfl | rfl
    · exact ((RequestExecutor.did_up _ hdid).and (RequestExecutor.serves_up _ hfd)).mono
        (fun _ _ h2 => ⟨h2.1.booked, h2.1.inUse, h2.2⟩)
    · exact ((SslRequestExecutor.did_up _ hdid).and (SslRequestExecutor.serves_up _ hfd)).mono
        (fun _ _ h2 => ⟨h2.1.booked, h2.1.inUse, h2.2⟩)
  simp only [ensures_ite, ensures_bind, ensures_pure]
  exact ⟨fun _ => (removeExecutorData_closes h2.1 h2.2.1 h2.2.2
    (hb.positive hopen)).mono (fun _ _ hclosed _ => hclosed), fun _ hne => absurd rfl hne⟩

/-- The first descriptor of the queue is closed when it does not become a connection. -/
theorem firstQueued_closed {d : NewFdData} {rest : List NewFdData} (h : Ledger none w)
    (hqueue : (w.loops l).newFdsQueue = d :: rest) :
    Ensures (createRequestExecutorInternal ans l d.fd d.execType)
      (w.setLoop l { w.loops l with newFdsQueue := rest })
      (fun result w' => result ≠ 0 → w'.kernel.openId? d.fd = none) := by
  obtain ⟨hl1, htype⟩ := firstQueued_taken h hqueue
  obtain ⟨hopen, hunheld⟩ := hl1.openInHand
  exact createRequestExecutorInternal_closes hl1.booked htype hopen hunheld

end

/-! ## The operations -/

namespace Operation

section
variable {ans : Answers} {w w' : World} {l r : Nat} {op : Operation}

/-- What an operation on a loop that was initialised comes to. -/
theorem onLoop_spec {α : Type} {m : Prog α} {Q : World → Prop}
    (hm : (w.loops l).phase = .waiting → Ensures m w (fun _ w' => Q w')) :
    Ensures (onLoop l m) w (fun _ w' => (w.loops l).phase = .waiting ∧ Q w') := by
  rw [onLoop, ensures_bind, ensures_getLoop]
  cases hphase : (w.loops l).phase with
  | waiting =>
    dsimp only
    rw [ensures_bind]
    exact (hm hphase).mono (fun _ w' hq => ensures_pure.mpr ⟨rfl, hq⟩)
  | _ => exact ensures_fail.mpr trivial

theorem onData_spec {α : Type} {m : Prog α} {Q : World → Prop} (hb : Booked w)
    (hm : ∀ x, Did l r x w w → Ensures m w (fun _ w' => Q w')) :
    Ensures (onData l r m) w (fun _ w' => (w.loops l).phase = .waiting ∧ Q w') := by
  rw [onData, ensures_bind, ensures_get, ensures_ite]
  exact ⟨fun huse => onLoop_spec (fun _ => hm _ ⟨.refl, hb, huse, rfl⟩),
    fun _ => ensures_fail.mpr trivial⟩

/-- Every operation but the first one is called for a loop that waits for events. -/
theorem step_waits (hstep : op.step w = some w') :
    op.initialises = true ∨ (w.loops op.loop).phase = .waiting := by
  have hloop : ∀ {α : Type} {m : Prog α} {l : Nat},
      Ensures (onLoop l m) w (fun _ _ => (w.loops l).phase = .waiting) := fun {_ _ _} =>
    (onLoop_spec (Q := fun _ => True) (fun _ _ _ _ => trivial)).mono (fun _ _ h => h.1)
  have hdata : ∀ {α : Type} {m : Prog α} {l r : Nat},
      Ensures (onData l r m) w (fun _ _ => (w.loops l).phase = .waiting) := by
    intro α m l r
    rw [onData, ensures_bind, ensures_get, ensures_ite]
    exact ⟨fun _ => hloop, fun _ => ensures_fail.mpr trivial⟩
  obtain ⟨_, hrun, _⟩ := Option.map_eq_some_iff.mp hstep
  cases op with
  | init l ans => exact Or.inl rfl
  | listenPort l execType ans => exact Or.inr (hloop _ _ hrun)
  | accept l ssl ans => exact Or.inr (hloop _ _ hrun)
  | takeFromQueue l ans => exact Or.inr (hloop _ _ hrun)
  | process l r fd events ans => exact Or.inr (hdata _ _ hrun)
  | addPollFd l r fd events ans => exact Or.inr (hdata _ _ hrun)
  | editPollFd l r fd events ans => exact Or.inr (hdata _ _ hrun)
  | removePollFd l r fd => exact Or.inr (hdata _ _ hrun)
  | closeFd l r fd => exact Or.inr (hdata _ _ hrun)
  | removeExecutorData l r => exact Or.inr (hdata _ _ hrun)
  | checkTimeout l curMillis => exact Or.inr (hloop _ _ hrun)

theorem acceptClient_deeds {ssl : Bool} (h : Ledger none w) :
    Ensures (acceptClient ans l ssl) w (fun _ w' => Deeds l w none none w') := by
  rw [acceptClient, ensures_bind]
  refine newDescriptor_spec.mono (fun fd w1 hnew => ?_)
  rw [ensures_ite, ensures_pure]
  rcases hnew with ⟨rfl, rfl⟩ | ⟨rfl, havail, rfl⟩
  · exact ⟨fun _ => .done _ none, fun hpos => absurd (by decide) hpos⟩
  · have hpos := havail.1
    refine ⟨fun hneg => by omega, fun _ => ?_⟩
    have hd1 : Deeds l w none (some ans.accept4) _ := (Deed.opened _ true havail).deeds
    have hl1 := hd1.ledger h
    obtain ⟨hopen, hunheld⟩ := hl1.openInHand
    rw [ensures_bind]
    refine (createRequestExecutorInternal_spec hl1.booked ?_ hopen hunheld).mono (fun _ w2 hc => ?_)
    · cases ssl
      · exact Or.inl rfl
      · exact Or.inr rfl
    · exact ensures_pure.mpr (hd1.trans (hc.deeds (fun r w' ha => ha.deeds hl1.booked)))

theorem callProcess_deeds {fd : Int} {events : Nat} (h : Ledger none w) (huse : w.InUse l r) :
    Ensures (callProcess ans l r fd events) w (fun _ w' => Deeds l w none none w') := by
  rw [callProcess, ensures_bind, ensures_getData]
  cases he : (w.data l r).pExecutor with
  | none => exact ensures_fail.mpr trivial
  | some e =>
    have hprocess : Ensures (do
        let _ ← e.process ans l r fd events
        return ⟨⟩ : Prog PUnit) w (fun _ w' => Deeds l w none none w') := by
      rw [ensures_bind]
      exact (process_spec h.booked huse he).mono (fun _ w' hp =>
        ensures_pure.mpr (hp.deeds h.booked))
    cases e with
    | newFd => exact ensures_pure.mpr (.done w none)
    | _ => exact hprocess

/-- A round of `checkNewFd` is a turn, and what it closes again is closed. -/
theorem startTake_turn (h : Steady w) (hphase : (w.loops l).phase = .waiting) :
    Ensures (startTake ans l) w (fun _ w' => Turn l w w' ∧ ∀ fd next,
      (w'.loops l).phase = .closingAgain fd next → w'.kernel.openId? fd = none) := by
  have hstayed : ∀ w', Deeds l w none none w' → Turn l w w' ∧ ∀ fd next,
      (w'.loops l).phase = .closingAgain fd next → w'.kernel.openId? fd = none := by
    intro w' hd
    refine ⟨.stayed w' hd ?_ ?_, fun fd next hagain => ?_⟩
    · rw [hphase]
      trivial
    · rw [hphase]
      exact fun _ hr => hr.elim
    · rw [hd.phase, hphase] at hagain
      cases hagain
  rw [startTake, ensures_bind, ensures_getLoop]
  cases hqueue : (w.loops l).newFdsQueue with
  | nil => exact ensures_pure.mpr (hstayed w (.done w none))
  | cons d rest =>
    dsimp only
    rw [ensures_bind, ensures_modifyLoop, ensures_bind]
    refine ((firstQueued_deeds h.ledger hqueue).and (firstQueued_closed h.ledger hqueue)).mono
      (fun result w1 h1 => ?_)
    obtain ⟨⟨hd, _⟩, hclosed⟩ := h1
    simp only [setPhase, ensures_when, ensures_modifyLoop]
    refine ⟨fun hne => ⟨.moved w1 (.closingAgain d.fd .waiting) hd (fun _ => ?_) trivial
      (fun _ hr => hr.elim) (fun _ hin => nomatch hin), fun fd next hagain => ?_⟩,
      fun _ => hstayed w1 hd⟩
    · rw [hphase]
      trivial
    · rw [World.setLoop_self] at hagain
      obtain ⟨rfl, _⟩ := Phase.closingAgain.inj hagain
      exact hclosed hne

/-- An operation is a turn, and a `close` that closes nothing may follow. -/
structure Ran (l : Nat) (w w' : World) : Prop where
  turn : ∃ w1, Turn l w w1 ∧ ((w.loops l).phase.Started ∨ Begun l w w1) ∧
    (w' = w1 ∨ ∃ fd, w1.kernel.openId? fd = none ∧ ClosesAgain w1 l fd w')

theorem takeClient_ran (h : Steady w) (hphase : (w.loops l).phase = .waiting) :
    Ensures (takeClient ans l) w (fun _ w' => Ran l w w') := by
  have hstarted : (w.loops l).phase.Started := by
    rw [hphase]
    trivial
  rw [takeClient, ensures_bind]
  refine (startTake_turn h hphase).mono (fun _ w1 h1 => ?_)
  obtain ⟨ht, hclosed⟩ := h1
  rw [closeAgain, ensures_bind, ensures_getLoop]
  cases hagain : (w1.loops l).phase with
  | closingAgain fd next =>
    simp only [setPhase, ensures_bind, ensures_close, ensures_modifyLoop]
    exact ⟨w1, ht, Or.inl hstarted, Or.inr ⟨fd, hclosed fd next hagain, next, hagain, rfl⟩⟩
  | _ => exact ensures_pure.mpr ⟨w1, ht, Or.inl hstarted, Or.inl rfl⟩

theorem step_ran (h : Steady w) (hstep : op.step w = some w') : ∃ l, Ran l w w' := by
  have hb := h.ledger.booked
  have hran : ∀ {m : Prog PUnit} {l : Nat}, Ensures m w (fun _ w' =>
      (w.loops l).phase = .waiting ∧ Deeds l w none none w') →
        Ensures m w (fun _ w' => ∃ l, Ran l w w') := by
    intro m l hm
    refine hm.mono (fun _ w' ⟨hphase, hd⟩ => ?_)
    have hstarted : (w.loops l).phase.Started := by
      rw [hphase]
      trivial
    refine ⟨l, w', .stayed w' hd hstarted ?_, Or.inl hstarted, Or.inl rfl⟩
    rw [hphase]
    exact fun _ hr => hr.elim
  have hkept : ∀ {α : Type} {m : Prog α} {l r : Nat}, (∀ x, Preserves (Did l r x w) m) →
      ∀ x, Did l r x w w → Ensures m w (fun _ w' => Deeds l w none none w') :=
    fun hm x hdid => (hm x w hdid).mono (fun _ w' h' => h'.deeds)
  have hperform : Ensures op.perform w (fun _ w' => ∃ l, Ran l w w') := by
    cases op with
    | init l ans =>
      simp only [perform, initLoop, ensures_bind, ensures_getLoop]
      cases hphase : (w.loops l).phase with
      | created =>
        dsimp only
        rw [ensures_bind]
        refine (init_begun h hphase).mono (fun _ w1 hbegun => ?_)
        refine (onLoop_spec (Q := fun w2 => w2 = w1) (fun _ => ensures_pure.mpr rfl)).mono
          (fun _ w2 h2 => ?_)
        rw [h2.2]
        exact ⟨l, w1, hbegun.turn h hphase, Or.inr hbegun, Or.inl rfl⟩
      | _ => exact ensures_fail.mpr trivial
    | listenPort l execType ans =>
      refine hran (onLoop_spec (fun _ => (listenPort_spec hb).mono (fun _ w1 hc => ?_)))
      obtain ⟨result, hc⟩ := hc
      exact hc.deeds (fun r w2 ha => ha.deeds_none hb)
    | accept l ssl ans => exact hran (onLoop_spec (fun _ => acceptClient_deeds h.ledger))
    | takeFromQueue l ans =>
      exact (onLoop_spec (fun hphase => takeClient_ran h hphase)).mono (fun _ _ h' => ⟨l, h'.2⟩)
    | process l r fd events ans =>
      exact hran (onData_spec hb (fun _ hdid => callProcess_deeds h.ledger hdid.inUse))
    | addPollFd l r fd events ans =>
      exact hran (onData_spec hb (hkept (fun _ => did_addPollFd)))
    | editPollFd l r fd events ans =>
      exact hran (onData_spec hb (hkept (fun _ => did_editPollFd)))
    | removePollFd l r fd => exact hran (onData_spec hb (hkept (fun _ => did_removePollFd)))
    | closeFd l r fd => exact hran (onData_spec hb (hkept (fun _ => did_closeFd)))
    | removeExecutorData l r =>
      exact hran (onData_spec hb (fun _ hdid =>
        (removeExecutorData_spec hb hdid.inUse).mono (fun _ w1 ht => ht.deeds hb)))
    | checkTimeout l curMillis => exact hran (onLoop_spec (fun _ => checkTimeout_deeds h.ledger))
  obtain ⟨⟨_, w1⟩, hrun, rfl⟩ := Option.map_eq_some_iff.mp hstep
  exact hperform _ _ hrun

theorem Ran.steady (hr : Ran l w w') (h : Steady w) : Steady w' := by
  obtain ⟨w1, ht, _, rfl | ⟨fd, hclosed, hc⟩⟩ := hr
  · exact ht.steady h
  · exact hc.steady hclosed (ht.steady h)

end

end Operation


end EpollHttp
