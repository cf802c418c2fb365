import EpollHttp.PollLoop.FileName
import EpollHttp.PollLoop.Onward
import EpollHttp.Stop.Threads

/-
The loops and the main thread together.

The steps of the loops are those of `World`, and the main thread and the flags come to them.  What
the threads do is a run of `ServerStop`, so the loops are deleted behind the last `destroy`.
-/

namespace EpollHttp

open Program
open ServerStop (Thread Main)

namespace ServerRun

/-- Where the thread of a loop stands that waits for events. -/
inductive Front
  | created
  | testing
  | polling
  | polled (nEvents : Nat)
  deriving DecidableEq

def Front.thread : Front → Thread
  | .created => .created
  | .testing => .testing
  | .polling => .polling
  | .polled nEvents => .polled nEvents

end ServerRun

structure ServerRun where
  world : World
  front : Nat → ServerRun.Front
  runFlag : Nat → Bool
  main : Main

/-- Whether the thread has left `run`. -/
def Phase.ends : Phase → Bool
  | .destroyed => true
  | _ => false

theorem Phase.ends_iff {phase : Phase} : phase.ends = true ↔ phase = .destroyed := by
  cases phase <;> simp [Phase.ends]

namespace ServerRun

/-- Behind `Server::start`. -/
def start (world : World) (runFlag : Nat → Bool) : ServerRun where
  world := world
  front := fun _ => .created
  runFlag := runFlag
  main := .serving

inductive Action
  | begin (l : Nat)
  | test (l : Nat)
  | poll (l nEvents : Nat)
  | interrupt (l : Nat)
  | pollError (l : Nat)
  /-- `if(!runFlag.load())`, behind which the entries are handled. -/
  | check (l : Nat) (ready : List (Int × Nat)) (curMillis : Int)
  | continue (l : Nat) (ans : Answers)
  | stop
  | store
  | notify
  | join

/-- The loop waits for events, and its thread stands there. -/
def At (s : ServerRun) (l : Nat) (front : Front) : Prop :=
  (s.world.loops l).phase.waits = true ∧ s.front l = front

instance (s : ServerRun) (l : Nat) (front : Front) : Decidable (s.At l front) :=
  inferInstanceAs (Decidable (_ ∧ _))

def setFront (s : ServerRun) (l : Nat) (front : Front) : ServerRun :=
  { s with front := Function.update s.front l front }

def perform (s : ServerRun) (a : EpollHttp.Action) : Option ServerRun :=
  (s.world.step a).map (fun w => { s with world := w })

/-- A step; the write to `eventFd` is left to `ServerStop`. -/
def step (s : ServerRun) : Action → Option ServerRun
  | .begin l =>
    if s.At l .created then
      some { s.setFront l .testing with runFlag := Function.update s.runFlag l true }
    else none
  | .test l =>
    if s.At l .testing then
      if s.runFlag l then some (s.setFront l .polling) else s.perform (.stop l)
    else none
  | .poll l nEvents =>
    if s.At l .polling ∧ nEvents ≤ MAX_EPOLL_EVENTS then some (s.setFront l (.polled nEvents))
    else none
  | .interrupt l => if s.At l .polling then some (s.setFront l .testing) else none
  | .pollError l => if s.At l .polling then s.perform (.stop l) else none
  | .check l ready curMillis =>
    if s.At l (.polled ready.length) then
      if s.runFlag l then s.perform (.epollWait l ready curMillis) else s.perform (.stop l)
    else none
  -- The condition of `while` is what comes behind the entries.
  | .continue l ans => (s.setFront l .testing).perform (.continue l ans)
  | .stop => if s.main = .serving then some { s with main := .storing 0 } else none
  | .store =>
    match s.main with
    | .storing l =>
      if l < s.world.parameters.threadCount then
        some { s with runFlag := Function.update s.runFlag l false, main := .notifying l }
      else some { s with main := .joining 0 }
    | _ => none
  | .notify =>
    match s.main with
    | .notifying l => some { s with main := .storing (l + 1) }
    | _ => none
  | .join =>
    match s.main with
    | .joining l =>
      if l < s.world.parameters.threadCount then
        if (s.world.loops l).phase.ends then some { s with main := .joining (l + 1) } else none
      else some { s with main := .stopped }
    | _ => none

/-- The descriptor that a step closes although `down` has closed it. -/
def Action.closesAgain (a : Action) (s : ServerRun) : Option Int :=
  match a with
  | .continue l ans => EpollHttp.Action.closesAgain (.continue l ans) s.world
  | _ => none

/-- What a second `close` hits is not open. -/
def Spares (s : ServerRun) (a : Action) : Prop :=
  ∀ fd ∈ a.closesAgain s, s.world.kernel.openId? fd = none

instance (s : ServerRun) (a : Action) : Decidable (s.Spares a) :=
  inferInstanceAs (Decidable (∀ fd ∈ a.closesAgain s, _))

end ServerRun

/-! ## What the threads do -/

/-- Where the thread of a loop stands, by the place where it would wait. -/
def Phase.thread (front : Thread) : Phase → Thread
  | .created => .created
  | .waiting => front
  | .draining _ pending => .handling pending.length
  | .checkingNewFd _ _ pending => .handling pending.length
  | .closingAgain _ .destroyed => .leaving
  | .closingAgain _ next => next.thread front
  | .destroyed => .ended

namespace ServerRun

def thread (s : ServerRun) (l : Nat) : Thread :=
  (s.world.loops l).phase.thread (s.front l).thread

/-- The threads stand where `ServerStop` has them; the counters are not compared. -/
structure Follows (s : ServerRun) (t : ServerStop) : Prop where
  main : t.main = s.main
  runFlag : t.runFlag = s.runFlag
  thread : ∀ l < s.world.parameters.threadCount, t.thread l = s.thread l

section
variable {s s' : ServerRun} {t : ServerStop} {w w' : World} {l n : Nat} {front : Front}

theorem At.phase (h : s.At l front) : (s.world.loops l).phase = .waiting :=
  Phase.waits_iff.mp h.1

theorem thread_of_phase {phase : Phase} (hphase : (s.world.loops l).phase = phase) :
    s.thread l = phase.thread (s.front l).thread := by
  unfold ServerRun.thread
  rw [hphase]

theorem At.thread (h : s.At l front) : s.thread l = front.thread :=
  (thread_of_phase h.phase).trans (congrArg Front.thread h.2)

theorem At.lt (h : s.At l front) (hv : Vacancies s.world) :
    l < s.world.parameters.threadCount := by
  by_contra hge
  have hcreated := hv.beyond l (Nat.not_lt.mp hge)
  rw [h.phase] at hcreated
  cases hcreated

/-- One thread takes its step. -/
theorem Follows.moved (h : Follows s t) {place : Thread} (hmain : s'.main = s.main)
    (hflag : s'.runFlag = s.runFlag) (hparameters : s'.world.parameters = s.world.parameters)
    (hself : s'.thread l = place) (hothers : ∀ l', l' ≠ l → s'.thread l' = s.thread l') :
    Follows s' (t.setThread l place) := by
  refine ⟨h.main.trans hmain.symm, h.runFlag.trans hflag.symm, fun l' hl' => ?_⟩
  rw [hparameters] at hl'
  rw [ServerStop.setThread_thread]
  by_cases heq : l' = l
  · subst heq
    rw [Function.update_self]
    exact hself.symm
  · rw [Function.update_of_ne heq, hothers l' heq]
    exact h.thread l' hl'

/-- A thread that waits goes to another place in front of the entries. -/
theorem Follows.fronted (h : Follows s t) (hat : s.At l front) (front' : Front) :
    Follows (s.setFront l front') (t.setThread l front'.thread) := by
  refine h.moved rfl rfl rfl ?_ (fun l' hne => ?_)
  · show (s.world.loops l).phase.thread (Function.update s.front l front' l).thread = _
    rw [hat.phase, Function.update_self]
    rfl
  · show (s.world.loops l').phase.thread (Function.update s.front l front' l').thread = _
    rw [Function.update_of_ne hne]
    rfl

theorem thread_other {front' : Nat → Front} {l' : Nat} (hsame : s.world.SameButQueue w' l')
    (hfront : front' l' = s.front l') :
    ServerRun.thread { s with world := w', front := front' } l' = s.thread l' := by
  show (w'.loops l').phase.thread (front' l').thread = _
  rw [hsame.phase, hfront]
  rfl

theorem setThread_setThread (place place' : Thread) :
    (t.setThread l place).setThread l place' = t.setThread l place' := by
  unfold ServerStop.setThread
  rw [Function.update_idem]

/-- A thread goes through `destroy`, or up to the last `close` of it. -/
theorem Follows.leaves (h : Follows s t) (hl : l < n) {a : ServerStop.Action}
    (hgo : ServerStop.step n t a = some (t.setThread l .leaving)) (hv : w'.Vacated l)
    {front' : Nat → Front} (hfront : ∀ l', l' ≠ l → front' l' = s.front l')
    (hothers : ∀ l', l' ≠ l → s.world.SameButQueue w' l')
    (hparameters : w'.parameters = s.world.parameters) :
    ∃ as t', Run.run (ServerStop.step n) t as = some t' ∧
      Follows { s with world := w', front := front' } t' := by
  have hother : ∀ l', l' ≠ l →
      ServerRun.thread { s with world := w', front := front' } l' = s.thread l' := fun l' hne =>
    thread_other (hothers l' hne) (hfront l' hne)
  rcases hv.phase with hphase | ⟨fd, hphase⟩
  · have hleave : ServerStop.step n (t.setThread l .leaving) (.leave l) =
        some ((t.setThread l .leaving).setThread l .ended) :=
      if_pos ⟨hl, Function.update_self ..⟩
    rw [setThread_setThread] at hleave
    refine ⟨_, _, Run.run_append (Run.run_one hgo) (Run.run_one hleave),
      h.moved rfl rfl hparameters ?_ hother⟩
    show (w'.loops l).phase.thread _ = _
    rw [hphase]
    rfl
  · refine ⟨_, _, Run.run_one hgo, h.moved rfl rfl hparameters ?_ hother⟩
    show (w'.loops l).phase.thread _ = _
    rw [hphase]
    rfl

theorem stop_vacates (h : Steady w) (hstep : w.step (.stop l) = some w') :
    w'.Vacated l ∧ (∀ l', l' ≠ l → w.SameButQueue w' l') ∧ w'.parameters = w.parameters := by
  have hperform : Ensures (EpollHttp.Action.perform (.stop l)) w (fun _ w' => w'.Vacated l ∧
      (∀ l', l' ≠ l → w.SameButQueue w' l') ∧ w'.parameters = w.parameters) := by
    simp only [EpollHttp.Action.perform, ensures_bind, ensures_getLoop]
    cases (w.loops l).phase with
    | waiting =>
      exact ((destroy_vacated w).and (destroy_turn h.ledger (.done w none))).mono
        (fun _ w' hw => ⟨hw.1, fun l' hne => hw.2.others hne, hw.2.parameters⟩)
    | _ => exact ensures_fail.mpr trivial
  obtain ⟨⟨_, w1⟩, hrun, rfl⟩ := Option.map_eq_some_iff.mp hstep
  exact hperform _ _ hrun

theorem length_of_mapM {α β : Type} {f : α → Option β} {xs : List α} {ys : List β}
    (h : xs.mapM f = some ys) : ys.length = xs.length := by
  induction xs generalizing ys with
  | nil =>
    have hnil : [] = ys := by simpa using h
    rw [← hnil]
    rfl
  | cons x rest ih =>
    rw [List.mapM_cons] at h
    obtain ⟨y0, _, h⟩ := Option.bind_eq_some_iff.mp h
    obtain ⟨ys0, hrest, h⟩ := Option.bind_eq_some_iff.mp h
    obtain rfl : y0 :: ys0 = ys := Option.some.inj h
    rw [List.length_cons, List.length_cons, ih hrest]

theorem epollWait_drains {ready : List (Int × Nat)} {curMillis : Int}
    (hstep : w.step (.epollWait l ready curMillis) = some w') :
    ∃ pending : List EpollEvent, pending.length = ready.length ∧
      w' = w.setLoop l { w.loops l with phase := .draining curMillis pending } := by
  have hperform : Ensures (EpollHttp.Action.perform (.epollWait l ready curMillis)) w
      (fun _ w' => ∃ pending : List EpollEvent, pending.length = ready.length ∧
        w' = w.setLoop l { w.loops l with phase := .draining curMillis pending }) := by
    simp only [EpollHttp.Action.perform, ensures_bind, ensures_getLoop]
    cases (w.loops l).phase with
    | waiting =>
      simp only [waitForEvents, ensures_bind, ensures_get]
      cases hbatch : w.batch l ready with
      | none => exact ensures_fail.mpr trivial
      | some pending =>
        dsimp only
        rw [setPhase, ensures_modifyLoop]
        refine ⟨pending, ?_, rfl⟩
        unfold World.batch at hbatch
        split at hbatch
        · exact length_of_mapM hbatch
        · cases hbatch
    | _ => exact ensures_fail.mpr trivial
  obtain ⟨⟨_, w1⟩, hrun, rfl⟩ := Option.map_eq_some_iff.mp hstep
  exact hperform _ _ hrun

theorem continue_onward {ans : Answers} (h : Steady w)
    (hstep : w.step (.continue l ans) = some w') : Onward l w w' ∧
      (∀ l', l' ≠ l → w.SameButQueue w' l') ∧ w'.parameters = w.parameters := by
  obtain ⟨⟨_, w1⟩, hrun, rfl⟩ := Option.map_eq_some_iff.mp hstep
  exact ((continueLoop_onward h).and (continueLoop_others h)) _ _ hrun

/-- The entries are handled one after the other, or `destroy` is called. -/
theorem Follows.onward (h : Follows s t) (hv : Vacancies s.world) {front' : Nat → Front}
    (hn : n = s.world.parameters.threadCount) (ho : Onward l s.world w')
    (hothers : ∀ l', l' ≠ l → s.world.SameButQueue w' l')
    (hparameters : w'.parameters = s.world.parameters)
    (hfront : front' = Function.update s.front l .testing) :
    ∃ as t', Run.run (ServerStop.step n) t as = some t' ∧
      Follows { s with world := w', front := front' } t' := by
  have hfront' : ∀ l', l' ≠ l → front' l' = s.front l' := by
    intro l' hne
    rw [hfront, Function.update_of_ne hne]
  have hother : ∀ l', l' ≠ l →
      ServerRun.thread { s with world := w', front := front' } l' = s.thread l' := fun l' hne =>
    thread_other (hothers l' hne) (hfront' l' hne)
  have hplace : ∀ {phase : Phase}, (s.world.loops l).phase = phase →
      l < n ∧ t.thread l = phase.thread (s.front l).thread := by
    intro phase hphase
    have hl : l < s.world.parameters.threadCount := by
      by_contra hge
      exact ho.began (hv.beyond l (Nat.not_lt.mp hge))
    exact ⟨hn ▸ hl, (h.thread l hl).trans (thread_of_phase hphase)⟩
  have hafter : ∀ {phase : Phase}, (w'.loops l).phase = phase →
      ServerRun.thread { s with world := w', front := front' } l =
        phase.thread (front' l).thread := fun hphase => thread_of_phase hphase
  -- What is left of an entry is no step.
  have hstays : ∀ {phase phase' : Phase}, (s.world.loops l).phase = phase →
      (w'.loops l).phase = phase' →
      phase'.thread (front' l).thread = phase.thread (s.front l).thread →
      ∃ as t', Run.run (ServerStop.step n) t as = some t' ∧
        Follows { s with world := w', front := front' } t' := by
    intro phase phase' hphase hphase' hsame
    refine ⟨[], t, rfl, h.main, h.runFlag, fun l' hl' => ?_⟩
    have hl'' : l' < s.world.parameters.threadCount := hparameters ▸ hl'
    rw [h.thread l' hl'']
    by_cases heq : l' = l
    · subst heq
      rw [thread_of_phase hphase, hafter hphase', hsame]
    · exact (hother l' heq).symm
  have hhandles : ∀ {phase phase' : Phase} {left : Nat}, (s.world.loops l).phase = phase →
      (w'.loops l).phase = phase' →
      phase.thread (s.front l).thread = .handling (left + 1) →
      phase'.thread (front' l).thread = .handling left →
      ∃ as t', Run.run (ServerStop.step n) t as = some t' ∧
        Follows { s with world := w', front := front' } t' := by
    intro phase phase' left hphase hphase' hbefore hnow
    obtain ⟨hl, hthread⟩ := hplace hphase
    refine ⟨_, _, Run.run_one (a := .handle l) (t := t.setThread l (.handling left)) ?_,
      h.moved rfl rfl hparameters ((hafter hphase').trans hnow) hother⟩
    simp only [ServerStop.step, hthread, hbefore]
    exact if_pos hl
  cases ho with
  | drained curMillis event pending hphase hphase'
    | checks r curMillis event pending hphase hphase' => exact hhandles hphase hphase' rfl rfl
  | vacated curMillis event pending hphase hvacated =>
    obtain ⟨hl, hthread⟩ := hplace hphase
    have hshutdown : ServerStop.step n t (.shutdown l) = some (t.setThread l .leaving) := by
      simp only [ServerStop.step, hthread, Phase.thread, List.length_cons]
      exact if_pos hl
    exact h.leaves hl hshutdown hvacated hfront' hothers hparameters
  | round curMillis hphase hphase' =>
    have hround : ServerStop.step n t (.endRound l) = some (t.setThread l .testing) :=
      if_pos (hplace hphase)
    refine ⟨_, _, Run.run_one hround, h.moved rfl rfl hparameters ?_ hother⟩
    rw [hafter hphase', hfront, Function.update_self]
    rfl
  | checked r curMillis pending hphase hphase'
    | created r curMillis pending hphase hphase'
    | refused r curMillis pending fd hphase hphase' => exact hstays hphase hphase' rfl
  | closed fd next hphase hloop =>
    have hphase' : (w'.loops l).phase = next := by rw [hloop]
    have hproper := hv.proper l
    rw [hphase] at hproper
    cases next with
    | destroyed =>
      have hleave : ServerStop.step n t (.leave l) = some (t.setThread l .ended) :=
        if_pos (hplace hphase)
      exact ⟨_, _, Run.run_one hleave, h.moved rfl rfl hparameters (hafter hphase') hother⟩
    | checkingNewFd r curMillis pending => exact hstays hphase hphase' rfl
    | _ => exact hproper.elim

/-- Every step of the server is one of the threads, some steps, or none. -/
theorem step_follows (hsteady : Steady s.world) (hv : Vacancies s.world) (h : Follows s t)
    (hn : n = s.world.parameters.threadCount) {a : Action} (hstep : s.step a = some s') :
    ∃ as t', Run.run (ServerStop.step n) t as = some t' ∧ Follows s' t' := by
  have hplace : ∀ {l : Nat} {front : Front}, s.At l front → l < n ∧ t.thread l = front.thread := by
    intro l front hat
    have hl := hat.lt hv
    exact ⟨hn ▸ hl, (h.thread l hl).trans hat.thread⟩
  have hstops : ∀ {l : Nat} {b : ServerStop.Action}, l < n →
      ServerStop.step n t b = some (t.setThread l .leaving) → s.perform (.stop l) = some s' →
      ∃ as t', Run.run (ServerStop.step n) t as = some t' ∧ Follows s' t' := by
    intro l b hl hgo hperform
    obtain ⟨w, hw, rfl⟩ := Option.map_eq_some_iff.mp hperform
    obtain ⟨hvacated, hothers, hparameters⟩ := stop_vacates hsteady hw
    exact h.leaves hl hgo hvacated (fun _ _ => rfl) hothers hparameters
  cases a with
  | begin l =>
    simp only [step, Option.ite_none_right_eq_some, Option.some.injEq] at hstep
    obtain ⟨hat, rfl⟩ := hstep
    have hbegin : ServerStop.step n t (.begin l) = some { t.setThread l .testing with
        runFlag := Function.update t.runFlag l true } := if_pos (hplace hat)
    refine ⟨_, _, Run.run_one hbegin, h.main, ?_, (h.fronted hat .testing).thread⟩
    show Function.update t.runFlag l true = Function.update s.runFlag l true
    rw [h.runFlag]
  | test l =>
    simp only [step, Option.ite_none_right_eq_some] at hstep
    obtain ⟨hat, hstep⟩ := hstep
    obtain ⟨hl, hthread⟩ := hplace hat
    have htest : ServerStop.step n t (.test l) =
        some (t.setThread l (if s.runFlag l then .polling else .leaving)) := by
      rw [← h.runFlag]
      exact if_pos ⟨hl, hthread⟩
    split at hstep
    · rename_i hup
      obtain rfl := Option.some.inj hstep
      rw [if_pos hup] at htest
      exact ⟨_, _, Run.run_one htest, h.fronted hat .polling⟩
    · rename_i hdown
      rw [if_neg hdown] at htest
      exact hstops hl htest hstep
  | poll l nEvents =>
    simp only [step, Option.ite_none_right_eq_some, Option.some.injEq] at hstep
    obtain ⟨⟨hat, hmax⟩, rfl⟩ := hstep
    obtain ⟨hl, hthread⟩ := hplace hat
    have hpoll : ServerStop.step n t (.poll l nEvents) =
        some (t.setThread l (.polled nEvents)) := if_pos ⟨hl, hthread, hmax⟩
    exact ⟨_, _, Run.run_one hpoll, h.fronted hat (.polled nEvents)⟩
  | interrupt l =>
    simp only [step, Option.ite_none_right_eq_some, Option.some.injEq] at hstep
    obtain ⟨hat, rfl⟩ := hstep
    have hinterrupt : ServerStop.step n t (.interrupt l) = some (t.setThread l .testing) :=
      if_pos (hplace hat)
    exact ⟨_, _, Run.run_one hinterrupt, h.fronted hat .testing⟩
  | pollError l =>
    simp only [step, Option.ite_none_right_eq_some] at hstep
    obtain ⟨hat, hstep⟩ := hstep
    exact hstops (b := .pollError l) (hplace hat).1 (if_pos (hplace hat)) hstep
  | check l ready curMillis =>
    simp only [step, Option.ite_none_right_eq_some] at hstep
    obtain ⟨hat, hstep⟩ := hstep
    obtain ⟨hl, hthread⟩ := hplace hat
    have hcheck : ServerStop.step n t (.check l) =
        some (t.setThread l (if s.runFlag l then .handling ready.length else .leaving)) := by
      rw [← h.runFlag]
      simp only [ServerStop.step, hthread, Front.thread]
      exact if_pos hl
    split at hstep
    · rename_i hup
      rw [if_pos hup] at hcheck
      obtain ⟨w, hw, rfl⟩ := Option.map_eq_some_iff.mp hstep
      obtain ⟨pending, hlength, rfl⟩ := epollWait_drains hw
      refine ⟨_, _, Run.run_one hcheck, h.moved rfl rfl rfl ?_ (fun l' hne => ?_)⟩
      · show ((s.world.setLoop l _).loops l).phase.thread _ = _
        rw [World.setLoop_self, ← hlength]
        rfl
      · exact thread_other ⟨_, World.setLoop_other _ _ hne _⟩ rfl
    · rename_i hdown
      rw [if_neg hdown] at hcheck
      exact hstops hl hcheck hstep
  | «continue» l ans =>
    obtain ⟨w, hw, rfl⟩ := Option.map_eq_some_iff.mp hstep
    obtain ⟨ho, hothers, hparameters⟩ := continue_onward hsteady hw
    exact h.onward hv hn ho hothers hparameters rfl
  | stop =>
    simp only [step, Option.ite_none_right_eq_some, Option.some.injEq] at hstep
    obtain ⟨hmain, rfl⟩ := hstep
    have hstop : ServerStop.step n t .stop = some { t with main := .storing 0 } :=
      if_pos (h.main.trans hmain)
    exact ⟨_, _, Run.run_one hstop, rfl, h.runFlag, h.thread⟩
  | store =>
    simp only [step] at hstep
    split at hstep
    · rename_i l hmain
      have hmain' := h.main.trans hmain
      split at hstep
      · rename_i hl
        obtain rfl := Option.some.inj hstep
        have hstore : ServerStop.step n t .store = some { t with
            runFlag := Function.update t.runFlag l false, main := .notifying l } := by
          simp only [ServerStop.step, hmain']
          exact if_pos (hn ▸ hl)
        refine ⟨_, _, Run.run_one hstore, rfl, ?_, h.thread⟩
        show Function.update t.runFlag l false = Function.update s.runFlag l false
        rw [h.runFlag]
      · rename_i hl
        obtain rfl := Option.some.inj hstep
        have hstore : ServerStop.step n t .store = some { t with main := .joining 0 } := by
          simp only [ServerStop.step, hmain']
          exact if_neg (hn ▸ hl)
        exact ⟨_, _, Run.run_one hstore, rfl, h.runFlag, h.thread⟩
    · cases hstep
  | notify =>
    simp only [step] at hstep
    split at hstep
    · rename_i l hmain
      obtain rfl := Option.some.inj hstep
      have hnotify : ServerStop.step n t .notify =
          some { t.write l with main := .storing (l + 1) } := by
        simp only [ServerStop.step, h.main.trans hmain]
      refine ⟨_, _, Run.run_one hnotify, rfl, ?_, fun l' hl' => ?_⟩
      · show (t.write l).runFlag = s.runFlag
        rw [ServerStop.write_runFlag, h.runFlag]
      · show (t.write l).thread l' = s.thread l'
        rw [ServerStop.write_thread]
        exact h.thread l' hl'
    · cases hstep
  | join =>
    simp only [step] at hstep
    split at hstep
    · rename_i l hmain
      have hmain' := h.main.trans hmain
      split at hstep
      · rename_i hl
        simp only [Option.ite_none_right_eq_some, Option.some.injEq] at hstep
        obtain ⟨hends, rfl⟩ := hstep
        have hended : t.thread l = .ended := by
          rw [h.thread l hl]
          unfold ServerRun.thread
          rw [Phase.ends_iff.mp hends]
          rfl
        have hjoin : ServerStop.step n t .join = some { t with main := .joining (l + 1) } := by
          simp only [ServerStop.step, hmain', if_pos (hn ▸ hl : l < n)]
          exact if_pos hended
        exact ⟨_, _, Run.run_one hjoin, rfl, h.runFlag, h.thread⟩
      · rename_i hl
        obtain rfl := Option.some.inj hstep
        have hjoin : ServerStop.step n t .join = some { t with main := .stopped } := by
          simp only [ServerStop.step, hmain']
          exact if_neg (hn ▸ hl)
        exact ⟨_, _, Run.run_one hjoin, rfl, h.runFlag, h.thread⟩
    · cases hstep

/-- The loops take their own steps only. -/
theorem step_world {a : Action} (hspares : s.Spares a) (hstep : s.step a = some s') :
    s'.world = s.world ∨ ∃ b, Run.guard SparesOpen World.step s.world b = some s'.world := by
  have hperforms : ∀ (s0 : ServerRun) {b : EpollHttp.Action}, s0.world = s.world →
      SparesOpen s.world b → s0.perform b = some s' →
      ∃ b, Run.guard SparesOpen World.step s.world b = some s'.world := by
    intro s0 b hsame hb hperform
    obtain ⟨w, hw, rfl⟩ := Option.map_eq_some_iff.mp hperform
    refine ⟨b, ?_⟩
    unfold Run.guard
    rw [if_pos hb, ← hsame]
    exact hw
  have hstop : ∀ l, SparesOpen s.world (.stop l) := fun _ _ hfd => by cases hfd
  cases a with
  | begin l | interrupt l | poll l nEvents | stop =>
    simp only [step, Option.ite_none_right_eq_some, Option.some.injEq] at hstep
    obtain ⟨_, rfl⟩ := hstep
    exact Or.inl rfl
  | test l =>
    simp only [step, Option.ite_none_right_eq_some] at hstep
    obtain ⟨_, hstep⟩ := hstep
    split at hstep
    · obtain rfl := Option.some.inj hstep
      exact Or.inl rfl
    · exact Or.inr (hperforms s rfl (hstop l) hstep)
  | pollError l =>
    simp only [step, Option.ite_none_right_eq_some] at hstep
    exact Or.inr (hperforms s rfl (hstop l) hstep.2)
  | check l ready curMillis =>
    simp only [step, Option.ite_none_right_eq_some] at hstep
    obtain ⟨_, hstep⟩ := hstep
    split at hstep
    · exact Or.inr (hperforms s rfl (fun _ hfd => by cases hfd) hstep)
    · exact Or.inr (hperforms s rfl (hstop l) hstep)
  | «continue» l ans => exact Or.inr (hperforms (s.setFront l .testing)
      (b := .continue l ans) rfl hspares hstep)
  | store =>
    simp only [step] at hstep
    split at hstep
    · split at hstep
      · obtain rfl := Option.some.inj hstep
        exact Or.inl rfl
      · obtain rfl := Option.some.inj hstep
        exact Or.inl rfl
    · cases hstep
  | notify =>
    simp only [step] at hstep
    split at hstep
    · obtain rfl := Option.some.inj hstep
      exact Or.inl rfl
    · cases hstep
  | join =>
    simp only [step] at hstep
    split at hstep
    · split at hstep
      · simp only [Option.ite_none_right_eq_some, Option.some.injEq] at hstep
        obtain ⟨_, rfl⟩ := hstep
        exact Or.inl rfl
      · obtain rfl := Option.some.inj hstep
        exact Or.inl rfl
    · cases hstep

/-- What holds of the loops in every step of the server. -/
structure Sound (parameters : ServerParameters) (s : ServerRun) : Prop where
  steady : Steady s.world
  vacancies : Vacancies s.world
  parameters : s.world.parameters = parameters

theorem step_sound {parameters : ServerParameters} {a : Action} (h : Sound parameters s)
    (hspares : s.Spares a) (hstep : s.step a = some s') : Sound parameters s' := by
  rcases step_world hspares hstep with hsame | ⟨b, hb⟩
  · exact ⟨hsame ▸ h.steady, hsame ▸ h.vacancies, hsame ▸ h.parameters⟩
  · obtain ⟨hsteady, hvacancies, hparameters⟩ := step_keeps h.steady h.vacancies hb
    exact ⟨hsteady, hvacancies, hparameters.trans h.parameters⟩

end

section
variable {parameters : ServerParameters} {actions : List EpollHttp.Action} {w : World}
variable {runFlag : Nat → Bool} {as : List Action} {s : ServerRun}

/-- A run of the server is one of the threads. -/
theorem run_follows
    (hworld : Run.run (Run.guard SparesOpen World.step) { parameters := parameters } actions =
      some w)
    (hwaits : ∀ l < parameters.threadCount, (w.loops l).phase = .waiting)
    (hrun : Run.run (Run.guard Spares step) (start w runFlag) as = some s) :
    Sound parameters s ∧ ∃ bs t,
      Run.run (ServerStop.step parameters.threadCount) (ServerStop.start runFlag) bs = some t ∧
        Follows s t := by
  obtain ⟨hsteady, hvacancies, hparameters⟩ := run_vacancies hworld
  have hsound : Sound parameters (start w runFlag) := ⟨hsteady, hvacancies, hparameters⟩
  have hfollows : Follows (start w runFlag) (ServerStop.start runFlag) := by
    refine ⟨rfl, rfl, fun l hl => ?_⟩
    rw [show (start w runFlag).world.parameters = parameters from hparameters] at hl
    show Thread.created = (w.loops l).phase.thread .created
    rw [hwaits l hl]
    rfl
  have hmatched : ∃ bs t,
      Run.run (ServerStop.step parameters.threadCount) (ServerStop.start runFlag) bs = some t ∧
        Sound parameters s ∧ Follows s t := by
    refine Run.run_simulated (R := fun s t => Sound parameters s ∧ Follows s t) ?_
      ⟨hsound, hfollows⟩ hrun
    intro s a s' t h hstep
    obtain ⟨hspares, hstep⟩ := Run.guard_some hstep
    obtain ⟨bs, t', hbs, hfollows'⟩ := step_follows h.1.steady h.1.vacancies h.2
      (congrArg ServerParameters.threadCount h.1.parameters.symm) hstep
    exact ⟨bs, t', hbs, step_sound h.1 hspares hstep, hfollows'⟩
  obtain ⟨bs, t, hbs, h⟩ := hmatched
  exact ⟨h.1, bs, t, hbs, h.2⟩

theorem thread_ended {front : Front} {phase : Phase} (h : phase.thread front.thread = .ended) :
    phase = .destroyed ∨ ∃ fd next, phase = .closingAgain fd next := by
  cases phase with
  | destroyed => exact Or.inl rfl
  | closingAgain fd next => exact Or.inr ⟨fd, next, rfl⟩
  | waiting =>
    cases front with
    | _ => cases h
  | _ => cases h

/-- Nothing happens when every thread has ended. -/
theorem stopped_halts {s' : ServerRun} {a : Action} (hsound : Sound parameters s)
    (hplace : ∀ l, (s.world.loops l).phase = .destroyed ∨ (s.world.loops l).phase = .created)
    (hstopped : s.main = .stopped) (hstep : s.step a = some s') : False := by
  have hat : ∀ {l : Nat} {front : Front}, ¬ s.At l front := by
    intro l front hat
    rcases hplace l with heq | heq
    · rw [hat.phase] at heq
      cases heq
    · rw [hat.phase] at heq
      cases heq
  cases a with
  | begin l | interrupt l | pollError l | test l | check l ready curMillis =>
    simp only [step, Option.ite_none_right_eq_some] at hstep
    exact hat hstep.1
  | poll l nEvents =>
    simp only [step, Option.ite_none_right_eq_some] at hstep
    exact hat hstep.1.1
  | «continue» l ans =>
    obtain ⟨w, hw, _⟩ := Option.map_eq_some_iff.mp hstep
    have hphase := hplace l
    cases (continue_onward hsound.steady hw).1 with
    | drained _ _ _ hnow | checks _ _ _ _ hnow | vacated _ _ _ hnow | round _ hnow
      | checked _ _ _ hnow | created _ _ _ hnow | refused _ _ _ _ hnow | closed _ _ hnow =>
      rcases hphase with heq | heq
      · cases hnow.symm.trans heq
      · cases hnow.symm.trans heq
  | stop | store | notify | join =>
    simp only [step, hstopped] at hstep
    cases hstep

/-- All steps up to the start of the threads meet `SparesOpen`, and all steps from there on meet
`Spares`.  Behind `Server::stop`, whatever such steps came between: each loop was destroyed, and its
destructor closes nothing more, no thread takes a step of any kind, and the clients that are still
connected wait in a queue. -/
theorem run_closes
    (hworld : Run.run (Run.guard SparesOpen World.step) { parameters := parameters } actions =
      some w)
    (hwaits : ∀ l < parameters.threadCount, (w.loops l).phase = .waiting)
    (hrun : Run.run (Run.guard Spares step) (start w runFlag) as = some s)
    (hstopped : s.main = .stopped) :
    (∀ l < parameters.threadCount,
      (s.world.loops l).phase = .destroyed ∧ s.world.closeCalls l = []) ∧
    (∀ a, s.step a = none) ∧
    ∀ fd id, s.world.kernel.openId? fd = some id → s.world.kernel.accepted id = true →
      s.world.Queued fd := by
  obtain ⟨hsound, bs, t, hbs, hfollows⟩ := run_follows hworld hwaits hrun
  have hjoined : ∀ l, t.main.Joined l := by
    intro l
    rw [hfollows.main, hstopped]
    trivial
  have hdestroyed : ∀ l < parameters.threadCount, (s.world.loops l).phase = .destroyed := by
    intro l hl
    have hthread : s.thread l = .ended :=
      (hfollows.thread l (hsound.parameters ▸ hl)).symm.trans
        (ServerStop.run_joined hbs l hl (hjoined l))
    rcases thread_ended hthread with heq | ⟨fd, next, heq⟩
    · exact heq
    · -- In front of a last `close` the thread has not ended.
      exfalso
      have hproper := hsound.vacancies.proper l
      unfold ServerRun.thread at hthread
      rw [heq] at hproper hthread
      cases next with
      | destroyed => cases hthread
      | checkingNewFd r curMillis pending => cases hthread
      | _ => exact hproper
  have hplace : ∀ l, (s.world.loops l).phase = .destroyed ∨ (s.world.loops l).phase = .created := by
    intro l
    by_cases hl : l < parameters.threadCount
    · exact Or.inl (hdestroyed l hl)
    · exact Or.inr (hsound.vacancies.beyond l (hsound.parameters ▸ Nat.not_lt.mp hl))
  have hbare : ∀ l, (s.world.loops l).Bare := by
    intro l
    refine hsound.vacancies.bare l (fun hbusy => ?_)
    rcases hplace l with heq | heq
    · rw [heq] at hbusy
      exact hbusy.2
    · rw [heq] at hbusy
      exact hbusy.1
  refine ⟨fun l hl => ⟨hdestroyed l hl, ?_⟩, fun a => ?_, fun fd id hopen haccepted => ?_⟩
  · exact closeCalls_destroyed (hbare l).blocks (hbare l).epollFd (hbare l).eventFd
  · cases hstep : s.step a with
    | none => rfl
    | some s' => exact (stopped_halts hsound hplace hstopped hstep).elim
  · rcases hsound.steady.ledger.owner fd id hopen haccepted with hhand | hqueued | ⟨l, r, hat⟩
    · cases hhand
    · exact hqueued
    · exfalso
      have hb := hsound.steady.ledger.booked
      have hne : s.world.kernel.openId? fd ≠ none := by
        rw [hopen]
        exact Option.some_ne_none id
      have hpos := hb.positive hne
      have hnone := ((hb.loops l).idle r ((hbare l).idle hb r) .fd0).1
      omega

end

/-! ## A run to the end -/

section
variable {s s' : ServerRun} {w : World} {l : Nat}

theorem destroy_returns (h : Ledger none w) : Returns (destroy l) w := by
  obtain ⟨w', hend, _⟩ := destroyToEnd_runs (l := l) h
  cases hrun : destroy l w with
  | some p => exact ⟨p.1, p.2, hrun⟩
  | none =>
    have hnone : destroyToEnd l w = none := by
      show (destroy l w).bind _ = none
      rw [hrun]
      rfl
    rw [hend] at hnone
    cases hnone

/-- The thread is told to stop, and `destroy` is going to close `eventFd` with its executor, which
is the first one. -/
structure Told (s : ServerRun) (l : Nat) : Prop where
  place : s.At l .testing
  runFlag : s.runFlag l = false
  positive : 0 < (s.world.loops l).eventFd
  held : s.world.fdAt l 0 .fd0 = (s.world.loops l).eventFd

instance (s : ServerRun) (l : Nat) : Decidable (s.Told l) :=
  decidable_of_iff (s.At l .testing ∧ s.runFlag l = false ∧ 0 < (s.world.loops l).eventFd ∧
      s.world.fdAt l 0 .fd0 = (s.world.loops l).eventFd)
    ⟨fun h => ⟨h.1, h.2.1, h.2.2.1, h.2.2.2⟩, fun h => ⟨h.place, h.runFlag, h.positive, h.held⟩⟩

theorem Told.closes (h : s.Told l) : s.world.Closes l (s.world.loops l).eventFd :=
  ⟨h.positive, Or.inl ⟨0, .fd0, h.held⟩⟩

theorem Told.congr (h : s.Told l) (hloop : s'.world.loops l = s.world.loops l)
    (hfront : s'.front l = s.front l) (hflag : s'.runFlag l = s.runFlag l) : s'.Told l := by
  obtain ⟨⟨hwaits, hplace⟩, hdown, hpos, hheld⟩ := h
  rw [← hloop] at hwaits hpos
  refine ⟨⟨hwaits, hfront.trans hplace⟩, hflag.trans hdown, hpos, ?_⟩
  unfold World.fdAt World.data at hheld ⊢
  rw [hloop]
  exact hheld

theorem getLoop_bind {α : Type} (f : PollLoop → Prog α) (w : World) :
    (getLoop l >>= f) w = f (w.loops l) w := rfl

/-- A thread that is told to stop ends. -/
theorem told_ends (h : Steady s.world) (ht : s.Told l) :
    ∃ w, Run.run (Run.guard Spares step) s [.test l, .continue l {}] =
        some { s.setFront l .testing with world := w } ∧
      (w.loops l).phase = .destroyed ∧ (∀ l', l' ≠ l → w.loops l' = s.world.loops l') ∧
      w.parameters = s.world.parameters := by
  have hcloses := ht.closes
  obtain ⟨_, w1, hrun⟩ := destroy_returns (l := l) h.ledger
  have hd := destroy_spec h.ledger.booked h.ledger.kernel h.ledger.looseEpoll _ _ hrun
  have hphase : (w1.loops l).phase = .closingAgain (s.world.loops l).eventFd .destroyed := by
    obtain ⟨execDatas, hloop⟩ := hd.loop
    rw [hloop]
    exact if_pos hcloses.1
  have hclosed : w1.kernel.openId? (s.world.loops l).eventFd = none := by
    obtain ⟨k, hk, heq | heq⟩ := hd.kernel
    · rw [heq]
      exact (hk.closed _ hcloses).1
    · rw [heq]
      exact (hk.closed _ hcloses).1
  have hstop : s.step (.test l) = some { s with world := w1 } := by
    have hperform : EpollHttp.Action.perform (.stop l) s.world = destroy l s.world := by
      simp only [EpollHttp.Action.perform, getLoop_bind, ht.place.phase]
    simp only [step, if_pos ht.place, ht.runFlag, perform, World.step, hperform, hrun]
    rfl
  have hspares : Spares { s with world := w1 } (.continue l {}) := by
    intro fd hfd
    have hagain : EpollHttp.Action.closesAgain (.continue l {}) w1 = some fd := hfd
    simp only [EpollHttp.Action.closesAgain, hphase, Option.some.injEq] at hagain
    rw [← hagain]
    exact hclosed
  have hend : step { s with world := w1 } (.continue l {}) = some { s.setFront l .testing with
      world := (w1.setKernel (w1.kernel.close (s.world.loops l).eventFd)).setLoop l
        { w1.loops l with phase := .destroyed } } := by
    have hperform : EpollHttp.Action.perform (.continue l {}) w1 = some (⟨⟩,
        (w1.setKernel (w1.kernel.close (s.world.loops l).eventFd)).setLoop l
          { w1.loops l with phase := .destroyed }) := by
      simp only [EpollHttp.Action.perform, continueLoop, getLoop_bind, hphase]
      rfl
    show (World.step w1 (.continue l {})).map _ = _
    unfold World.step
    rw [hperform]
    rfl
  have htest : Run.guard Spares step s (.test l) = some { s with world := w1 } :=
    (if_pos (fun _ hfd => by cases hfd)).trans hstop
  refine ⟨_, Run.run_append (Run.run_one htest) (Run.run_one ((if_pos hspares).trans hend)), ?_,
    fun l' hne => ?_, hd.parameters⟩
  · rw [World.setLoop_self]
  · rw [World.setLoop_other _ _ hne]
    exact hd.others l' hne

theorem joins (hmain : s.main = .joining l) (hl : l < s.world.parameters.threadCount)
    (hphase : (s.world.loops l).phase = .destroyed) :
    Run.guard Spares step s .join = some { s with main := .joining (l + 1) } := by
  refine (if_pos (fun _ hfd => by cases hfd)).trans ?_
  simp only [step, hmain, if_pos hl, if_pos (Phase.ends_iff.mpr hphase)]

theorem joins_last (hmain : s.main = .joining l) (hl : ¬ l < s.world.parameters.threadCount) :
    Run.guard Spares step s .join = some { s with main := .stopped } := by
  refine (if_pos (fun _ hfd => by cases hfd)).trans ?_
  simp only [step, hmain, if_neg hl]

end

/-- Two loops, one of which listens. -/
def startedTwo : List EpollHttp.Action :=
  [.init 0 { epollCreate := 3, eventfd := 4 }, .init 1 { epollCreate := 5, eventfd := 6 },
    .listenPort 0 .server { socket := 7 }]

/-- A client is queued for the other loop, which does not wait for events any more. -/
def toldQueued : List Action :=
  [.begin 0, .begin 1, .test 0, .poll 0 1, .check 0 [(7, EPOLLIN)] 0,
    .continue 0 { accept4 := 8, numOfPollFds := fun l => 1 - l }, .continue 0 {}, .stop, .store,
    .notify, .store, .notify, .store]

def stoppedQueued : List Action :=
  toldQueued ++ [.test 0, .continue 0 {}, .test 1, .continue 1 {}, .join, .join, .join]

theorem run_closes_stoppedQueued : ∃ w s,
    Run.run (Run.guard SparesOpen World.step) { parameters := twoThreads } startedTwo = some w ∧
      Run.run (Run.guard Spares step) (start w (fun _ => false)) stoppedQueued = some s ∧
      (∀ l < 2, (s.world.loops l).phase = .destroyed ∧ s.world.closeCalls l = []) ∧
      (∀ a, s.step a = none) ∧
      ∀ fd id, s.world.kernel.openId? fd = some id → s.world.kernel.accepted id = true →
        s.world.Queued fd := by
  have hrun : (Run.run (Run.guard SparesOpen World.step) { parameters := twoThreads }
      startedTwo).map (fun w => ((w.loops 0).phase.waits && (w.loops 1).phase.waits,
        (Run.run (Run.guard Spares step) (start w (fun _ => false)) toldQueued).map (fun s =>
          (s.main, decide (s.Told 0), decide (s.Told 1))))) =
      some (true, some (.joining 0, true, true)) := by
    decide +kernel
  obtain ⟨w, hw, heq⟩ := Option.map_eq_some_iff.mp hrun
  obtain ⟨hboth, heq⟩ := Prod.mk.inj heq
  obtain ⟨h0, h1⟩ := Bool.and_eq_true_iff.mp hboth
  have hwaits : ∀ l < twoThreads.threadCount, (w.loops l).phase = .waiting := by
    intro l hl
    rcases (show l = 0 ∨ l = 1 by
      have hlt : l < 2 := hl
      omega) with rfl | rfl
    · exact Phase.waits_iff.mp h0
    · exact Phase.waits_iff.mp h1
  obtain ⟨s0, hs0, heq⟩ := Option.map_eq_some_iff.mp heq
  obtain ⟨hmain, heq⟩ := Prod.mk.inj heq
  obtain ⟨htold0, htold1⟩ := Prod.mk.inj heq
  have hsound := (run_follows hw hwaits hs0).1
  -- The first loop.
  obtain ⟨w1, hs1, hphase0, hothers1, hparameters1⟩ :=
    told_ends hsound.steady (of_decide_eq_true htold0)
  -- The second one stands where it stood.
  have hsteady1 := (run_follows hw hwaits (Run.run_append hs0 hs1)).1.steady
  have htold1' : Told { s0.setFront 0 .testing with world := w1 } 1 :=
    (of_decide_eq_true htold1).congr (hothers1 1 (by decide)) rfl rfl
  obtain ⟨w2, hs2, hphase1, hothers2, hparameters2⟩ :=
    told_ends (s := { s0.setFront 0 .testing with world := w1 }) hsteady1 htold1'
  have hthreads : w2.parameters.threadCount = 2 := by
    rw [hparameters2.trans (hparameters1.trans hsound.parameters)]
    rfl
  have hlt : ∀ l < 2, l < w2.parameters.threadCount := fun l hl => hthreads ▸ hl
  have hphase0' : (w2.loops 0).phase = .destroyed := by
    rw [hothers2 0 (by decide)]
    exact hphase0
  have hjoin0 := joins (s := { (s0.setFront 0 .testing).setFront 1 .testing with world := w2 })
    hmain (hlt 0 (by decide)) hphase0'
  have hjoin1 := joins (s := { (s0.setFront 0 .testing).setFront 1 .testing with
    world := w2, main := .joining 1 }) rfl (hlt 1 (by decide)) hphase1
  have hjoin2 := joins_last (s := { (s0.setFront 0 .testing).setFront 1 .testing with
    world := w2, main := .joining 2 }) rfl (Nat.not_lt.mpr hthreads.le)
  have hs := Run.run_append hs0 (Run.run_append hs1 (Run.run_append hs2
    (Run.run_append (Run.run_one hjoin0) (Run.run_append (Run.run_one hjoin1)
      (Run.run_one hjoin2)))))
  obtain ⟨hdestroyed, hhalted, hqueued⟩ := run_closes hw hwaits hs rfl
  exact ⟨w, _, hw, hs, hdestroyed, hhalted, hqueued⟩

end ServerRun
end EpollHttp
