import EpollHttp.PollLoop.Shutdown

/-
The books of `PollLoop` over everything that is done to the loops.

The operations are called in any order, and the threads of the loops come in between.  A second
`close` of a number that is open again takes the registration of another executor away; in every
run without one, the books of every loop that was not destroyed match.
-/

namespace EpollHttp

open Program

/-! ## What the books say -/

structure BooksMatch (w : World) (l : Nat) : Prop where
  /-- An allocated item belongs to one place of one executor that is in use, and points back. -/
  items : ∀ p ∈ w.usedPolls l, ∃ r place, w.InUse l r ∧ w.pollDataAt l r place = some p ∧
    w.pollData l p = { fd := w.fdAt l r place, execData := some r } ∧
    ∀ r' place', w.pollDataAt l r' place' = some p → r' = r ∧ place' = place
  /-- What an executor points to is allocated. -/
  pointers : ∀ r place p, w.pollDataAt l r place = some p → p ∈ w.usedPolls l
  /-- The epoll set is made of the descriptors of the items, with their addresses. -/
  interest : ∀ fd p, (w.kernel.epoll l fd).map Registration.ptr = some p ↔
    p ∈ w.usedPolls l ∧ (w.pollData l p).fd = fd
  unused : ∀ r, ¬ w.InUse l r → (w.data l r).pollData0 = none ∧ (w.data l r).pollData1 = none
  count : (w.usedPolls l).Nodup ∧ (w.loops l).numOfPollFds = (w.usedPolls l).length

theorem Booked.match {w : World} {l : Nat} (h : Booked w) (hlive : (w.loops l).phase.Live) :
    BooksMatch w l := by
  have hl := h.loops l
  refine ⟨fun p hp => ?_, fun r place p hp => (hl.slot r place p hp).1, fun fd p => ⟨fun hptr => ?_,
    fun hp => ?_⟩, fun r hidle => ⟨(hl.idle r hidle .fd0).2, (hl.idle r hidle .fd1).2⟩,
    usedItems_nodup hl.polls, hl.count hlive⟩
  · obtain ⟨r, place, hslot⟩ := hl.item p hp
    exact ⟨r, place, h.inUse hslot, hslot, (hl.slot r place p hslot).2.1,
      fun r' place' hslot' => h.slot_unique hslot' hslot⟩
  · obtain ⟨reg, hreg, rfl⟩ := Option.map_eq_some_iff.mp hptr
    obtain ⟨r, place, hslot, rfl⟩ := hl.entry fd reg hreg
    obtain ⟨hin, hd, _⟩ := hl.slot r place _ hslot
    rw [hd]
    exact ⟨hin, rfl⟩
  · obtain ⟨hin, rfl⟩ := hp
    obtain ⟨r, place, hslot⟩ := hl.item p hin
    obtain ⟨_, hd, reg, hreg, hptr⟩ := hl.slot r place p hslot
    rw [hd]
    exact Option.map_eq_some_iff.mpr ⟨reg, hreg, hptr⟩

/-! ## What is done to the loops -/

def Phase.decideLive : (phase : Phase) → Decidable phase.Live
  | .created => isTrue trivial
  | .waiting => isTrue trivial
  | .draining _ _ => isTrue trivial
  | .checkingNewFd _ _ _ => isTrue trivial
  | .closingAgain _ next => decideLive next
  | .destroyed => isFalse not_false

instance (phase : Phase) : Decidable phase.Live := phase.decideLive

namespace Books

inductive Step
  | call (op : Operation)
  /-- A round of `checkNewFd`; other steps may come before its `close`, which is a step of the
  thread. -/
  | take (l : Nat) (ans : Answers)
  | act (a : Action)

def step (w : World) : Step → Option World
  | .call op => op.step w
  | .take l ans => (Operation.onLoop l (Operation.startTake ans l) w).map Prod.snd
  | .act a => w.step a

/-- What a second `close` hits is not open. -/
def Spares (w : World) : Step → Prop
  | .act a => SparesOpen w a
  | _ => True

instance (w : World) (s : Step) : Decidable (Spares w s) :=
  match s with
  | .call _ => isTrue trivial
  | .take _ _ => isTrue trivial
  | .act a => inferInstanceAs (Decidable (SparesOpen w a))

theorem keeps_steady {w w' : World} {s : Step} (h : Steady w)
    (hstep : Run.guard Spares step w s = some w') : Steady w' := by
  obtain ⟨hspares, hstep⟩ := Run.guard_some hstep
  cases s with
  | call op =>
    obtain ⟨l, hran⟩ := Operation.step_ran h hstep
    exact hran.steady h
  | take l ans =>
    obtain ⟨⟨_, w1⟩, hrun, rfl⟩ := Option.map_eq_some_iff.mp hstep
    have hspec : Ensures (Operation.onLoop l (Operation.startTake ans l)) w (fun _ w' =>
        (w.loops l).phase = .waiting ∧ Steady w') :=
      Operation.onLoop_spec (fun hphase =>
        (Operation.startTake_turn h hphase).mono (fun _ _ h1 => h1.1.steady h))
    exact (hspec _ _ hrun).2
  | act a =>
    obtain ⟨l, ht | ⟨fd, hagain, hc⟩⟩ := step_turn h hstep
    · exact ht.steady h
    · exact hc.steady (hspares fd hagain) h

end Books

/-- The books of every loop that was not destroyed match, whatever is done to the loops without a
second `close` of an open descriptor. -/
theorem run_books {parameters : ServerParameters} {steps : List Books.Step} {w : World}
    (hrun : Run.run (Run.guard Books.Spares Books.step) { parameters := parameters } steps =
      some w) {l : Nat} (hlive : (w.loops l).phase.Live) : BooksMatch w l := by
  have hsteady : Steady w :=
    Run.run_invariant (fun _ _ _ h hstep => Books.keeps_steady h hstep)
      (steady_start parameters) hrun
  exact hsteady.ledger.booked.match hlive

/-- The loads by which the loop `l` is chosen. -/
def loadsFor (l i : Nat) : Int := if i = l then 0 else 1

/-- A client waits for the second loop and is refused by its epoll set.  Before the second loop
closes it again, another client is accepted and registered by the first one. -/
def refusedClient (fd : Int) : List Books.Step :=
  [.call (.init 0 { epollCreate := 3, eventfd := 4 }),
    .call (.init 1 { epollCreate := 5, eventfd := 6 }),
    .call (.listenPort 0 .server { socket := 7 }),
    .call (.process 0 1 7 EPOLLIN { accept4 := 8, numOfPollFds := loadsFor 1 }),
    .call (.process 1 0 6 EPOLLIN {}),
    .take 1 { epollAdd := false },
    .call (.process 0 1 7 EPOLLIN { accept4 := fd, numOfPollFds := loadsFor 0 }),
    .take 0 {},
    .act (.continue 1 {})]

theorem run_books_refusedClient : ∃ w,
    Run.run (Run.guard Books.Spares Books.step) { parameters := twoThreads } (refusedClient 9) =
      some w ∧ w.InUse 0 2 ∧ BooksMatch w 0 := by
  have hrun : (Run.run (Run.guard Books.Spares Books.step) { parameters := twoThreads }
      (refusedClient 9)).map (fun w => (decide (w.loops 0).phase.Live, decide (w.InUse 0 2))) =
        some (true, true) := by
    decide +kernel
  obtain ⟨w, hw, heq⟩ := Option.map_eq_some_iff.mp hrun
  obtain ⟨hlive, huse⟩ := Prod.mk.inj heq
  exact ⟨w, hw, of_decide_eq_true huse, run_books hw (of_decide_eq_true hlive)⟩

/-- Two threads: the number of the client that was refused is handed out again before it is closed
for the second time. -/
def refusedAgain : List Action :=
  [.init 0 { epollCreate := 3, eventfd := 4 },
    .init 1 { epollCreate := 5, eventfd := 6 },
    .listenPort 0 .server { socket := 7 },
    .epollWait 0 [(7, EPOLLIN)] 0,
    .continue 0 { accept4 := 8, numOfPollFds := loadsFor 1 },
    .continue 0 {},
    .epollWait 1 [(6, EPOLLIN)] 0,
    .continue 1 {},
    .continue 1 { epollAdd := false },
    .epollWait 0 [(7, EPOLLIN)] 0,
    .continue 0 { accept4 := 8, numOfPollFds := loadsFor 0 },
    .continue 0 {},
    .epollWait 0 [(4, EPOLLIN)] 0,
    .continue 0 {},
    .continue 0 {},
    .continue 1 {}]

/-- The second `close` takes the client of the first loop out of its epoll set. -/
theorem refusedAgain_mismatch : ∃ w,
    Run.run Books.step { parameters := twoThreads } (refusedAgain.map .act) = some w ∧
      (w.loops 0).phase.Live ∧ ¬ BooksMatch w 0 := by
  have hrun : (Run.run Books.step { parameters := twoThreads } (refusedAgain.map .act)).map
      (fun w => (decide (w.loops 0).phase.Live, decide (2 ∈ w.usedPolls 0), (w.pollData 0 2).fd,
        (w.kernel.epoll 0 8).isNone)) = some (true, true, 8, true) := by
    decide +kernel
  obtain ⟨w, hw, heq⟩ := Option.map_eq_some_iff.mp hrun
  obtain ⟨hlive, hused, hfd, hnone⟩ : (w.loops 0).phase.Live ∧ 2 ∈ w.usedPolls 0 ∧
      (w.pollData 0 2).fd = 8 ∧ w.kernel.epoll 0 8 = none := by simpa using heq
  refine ⟨w, hw, hlive, fun hmatch => ?_⟩
  have hreg := (hmatch.interest 8 2).mpr ⟨hused, hfd⟩
  rw [hnone] at hreg
  cases hreg

end EpollHttp
