import EpollHttp.PollLoop.Bookkeeping

/-
What holds of `fileNameBuffer` after every sequence of operations.

The buffer is written in three places: `init` prints the root folder, and a request cuts the name
off and appends another one.  What these keep holds of every loop that was initialised.
-/

namespace EpollHttp

open Program RequestExecutor

/-- Whether the loop stands in front of `epoll_wait`. -/
def Phase.waits : Phase → Bool
  | .waiting => true
  | _ => false

theorem Phase.waits_iff {phase : Phase} : phase.waits = true ↔ phase = .waiting := by
  cases phase <;> simp [Phase.waits]

/-- A property of the buffer that `init` brings about and that naming a file keeps. -/
structure NameKept (rootFolder : Bytes) (P : PollLoop → Prop) : Prop where
  congr : ∀ {loop loop' : PollLoop}, P loop → loop'.fileNameBuffer = loop.fileNameBuffer →
    loop'.rootFolderLength = loop.rootFolderLength → P loop'
  cut : ∀ loop : PollLoop, P loop → P { loop with fileNameBuffer := cutFileName loop }
  named : ∀ (loop : PollLoop) (name : Bytes),
    (name = indexHtml ∨ loop.rootFolderLength + name.length ≤ MAX_FILE_NAME) →
      P loop → P { loop with fileNameBuffer := strcat (cutFileName loop) name }
  printed : ∀ loop : PollLoop, loop.fileNameBuffer = printRootFolder rootFolder →
    loop.rootFolderLength = (CString.cString (printRootFolder rootFolder)).length → P loop

section
variable {w w' : World} {l r : Nat} {hand hand' : Option Int} {P : PollLoop → Prop}
variable {rootFolder : Bytes} {op : Operation}

theorem NameKept.rewatch {pollDatas : BlockStorage PollData} {d : ExecutorData} {n : Int}
    {k : Kernel} (hP : NameKept rootFolder P) (h : P (w.loops l)) :
    P ((w.rewatch l r pollDatas d n k).loops l) := by
  unfold World.rewatch
  dsimp only
  rw [Function.update_self]
  exact hP.congr h rfl rfl

theorem NameKept.effect (hP : NameKept rootFolder P) (he : Effect l r w w')
    (h : P (w.loops l)) : P (w'.loops l) := by
  have hsetData : ∀ d, P ((w.setData l r d).loops l) := by
    intro d
    rw [World.setData_loops]
    exact hP.congr h rfl rfl
  cases he with
  | bytes k hk => exact h
  | data d hheld halone => exact hsetData d
  | cut =>
    rw [World.setLoop_self]
    exact hP.cut _ h
  | named name hname =>
    rw [World.setLoop_self]
    exact hP.named _ name hname h
  | added fd events p w' huse ha =>
    obtain ⟨_, pollDatas, k, _, _, rfl⟩ := ha
    exact hP.rewatch h
  | refused w' hr =>
    obtain ⟨p, pollDatas, _, rfl⟩ := hr
    exact hP.rewatch h
  | edited fd events p k hp hk => exact h
  | removed fd p w' hr =>
    obtain ⟨_, k, _, rfl⟩ := hr
    exact hP.rewatch h
  | tried sock havail => exact h
  | opened place fd huse havail hpoll hfd halone => exact hsetData _
  | closed place hpoll => exact hsetData _

theorem NameKept.deed (hP : NameKept w.parameters.rootFolder P) (hd : Deed l w hand hand' w')
    (h : P (w.loops l)) : P (w'.loops l) := by
  have hsetLoop : ∀ i loop, loop.fileNameBuffer = (w.loops i).fileNameBuffer →
      loop.rootFolderLength = (w.loops i).rootFolderLength → P ((w.setLoop i loop).loops l) := by
    intro i loop hname hlength
    by_cases hi : l = i
    · rw [hi, World.setLoop_self]
      exact hP.congr (hi ▸ h) hname hlength
    · rw [World.setLoop_other _ _ hi]
      exact h
  cases hd with
  | effect hand r w' he => exact hP.effect he h
  | handedOut hand r w' hh =>
    obtain ⟨_, _, rfl⟩ := hh
    exact hsetLoop l _ rfl rfl
  | adopted r fd huse hpoll hold => exact hsetLoop l _ rfl rfl
  | freed hand r huse hempty => exact hsetLoop l _ rfl rfl
  | opened fd accepted havail => exact h
  | queued i fd execType htype => exact hsetLoop i _ rfl rfl
  | dequeued d rest hqueue => exact hsetLoop l _ rfl rfl
  | closed fd => exact h
  | epollFd fd hclient => exact hsetLoop l _ rfl rfl
  | assigned hand eventFd lastCheckTimeoutMillis => exact hsetLoop l _ rfl rfl
  | rooted hcount =>
    rw [World.setLoop_self]
    exact hP.printed _ rfl rfl

theorem NameKept.deeds (hP : NameKept w.parameters.rootFolder P) (hs : Deeds l w hand hand' w')
    (h : P (w.loops l)) : P (w'.loops l) := by
  induction hs with
  | done => exact h
  | next hs hd ih =>
    rw [← hs.parameters] at hP
    exact hP.deed hd ih

theorem NameKept.destroyed (hP : NameKept rootFolder P) (hw : Destroyed w l w')
    (h : P (w.loops l)) : P (w'.loops l) := by
  obtain ⟨execDatas, hloop⟩ := hw.loop
  rw [hloop]
  exact hP.congr h rfl rfl

theorem NameKept.turn (hP : NameKept w.parameters.rootFolder P) (ht : Turn l w w')
    (h : P (w.loops l)) : P (w'.loops l) := by
  cases ht with
  | stayed w' hd hstarted huse => exact hP.deeds hd h
  | moved w1 phase hd hlive hstarted huse hpending =>
    rw [World.setLoop_self]
    exact hP.congr (hP.deeds hd h) rfl rfl
  | destroyed w1 w' hd hw => exact hP.destroyed hw (hP.deeds hd h)

/-- `init` prints the root folder. -/
theorem NameKept.begun (hP : NameKept w.parameters.rootFolder P) (h : Begun l w w') :
    P (w'.loops l) := by
  obtain ⟨w1, hd, hend⟩ := h
  have h0 : P ((w.nameRoot l).loops l) := by
    rw [World.nameRoot, World.setLoop_self]
    exact hP.printed _ rfl rfl
  have h1 : P (w1.loops l) := NameKept.deeds (w := w.nameRoot l) hP hd h0
  rcases hend with rfl | hw
  · rw [World.setLoop_self]
    exact hP.congr h1 rfl rfl
  · exact hP.destroyed hw h1

/-- A second `close` is not for the buffer. -/
theorem NameKept.closesAgain {fd : Int} (hP : NameKept rootFolder P) (hc : ClosesAgain w l fd w')
    (h : ∀ l, (w.loops l).phase.Started → P (w.loops l)) {l' : Nat}
    (hstarted : (w'.loops l').phase.Started) : P (w'.loops l') := by
  by_cases hl : l' = l
  · obtain ⟨next, hphase, rfl⟩ := hc
    rw [hl, World.setLoop_self] at hstarted ⊢
    exact hP.congr (h l (by rw [hphase]; exact hstarted)) rfl rfl
  · rw [hc.others hl] at hstarted ⊢
    exact h l' hstarted

theorem NameKept.step (hP : NameKept w.parameters.rootFolder P) (hw : Steady w)
    (h : ∀ l, (w.loops l).phase.Started → P (w.loops l)) (hstep : op.step w = some w') :
    (Steady w' ∧ ∀ l, (w'.loops l).phase.Started → P (w'.loops l)) ∧
      w'.parameters = w.parameters := by
  obtain ⟨l, hran⟩ := Operation.step_ran hw hstep
  obtain ⟨w1, ht, hbegun, hend⟩ := hran.turn
  have h1 : ∀ l, (w1.loops l).phase.Started → P (w1.loops l) := by
    intro l' hstarted
    by_cases hl : l' = l
    · rw [hl]
      rcases hbegun with hstarted | hbegun
      · exact hP.turn ht (h l hstarted)
      · exact hP.begun hbegun
    · obtain ⟨queue, heq⟩ := ht.others hl
      rw [heq] at hstarted ⊢
      exact hP.congr (h l' hstarted) rfl rfl
  have hsteady := hran.steady hw
  rcases hend with rfl | ⟨fd, _, hc⟩
  · exact ⟨⟨hsteady, h1⟩, ht.parameters⟩
  · refine ⟨⟨hsteady, fun _ hstarted => hP.closesAgain hc h1 hstarted⟩, ?_⟩
    obtain ⟨next, _, rfl⟩ := hc
    exact ht.parameters

/-- What naming a file keeps holds of every loop that was initialised. -/
theorem NameKept.run {parameters : ServerParameters} {ops : List Operation}
    (hP : NameKept parameters.rootFolder P)
    (hrun : Run.run Operation.step { parameters := parameters } ops = some w)
    (hstarted : (w.loops l).phase.Started) : P (w.loops l) ∧ w.parameters = parameters := by
  have hkept : (Steady w ∧ ∀ l, (w.loops l).phase.Started → P (w.loops l)) ∧
      w.parameters = parameters := by
    refine Run.run_invariant (P := fun w => (Steady w ∧
      ∀ l, (w.loops l).phase.Started → P (w.loops l)) ∧ w.parameters = parameters)
      (fun w op w' h hstep => ?_) ⟨⟨steady_start parameters, fun _ hs => hs.elim⟩, rfl⟩ hrun
    obtain ⟨⟨hw, hnamed⟩, hkept⟩ := h
    obtain ⟨h', heq⟩ := NameKept.step (by rw [hkept]; exact hP) hw hnamed hstep
    exact ⟨h', heq.trans hkept⟩
  exact ⟨hkept.1.2 l hstarted, hkept.2⟩

end

end EpollHttp
