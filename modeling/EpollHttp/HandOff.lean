import EpollHttp.PollLoop.Conduct
import EpollHttp.Lib.Fifo
import EpollHttp.Lib.Run

/-
The hand-over of accepted descriptors to the loop that serves them.

A thread that accepted a connection pushes its descriptor under `newFdsMutex` and writes to
`eventFd` behind it, in two steps.  The loop reads `eventFd` once and then pops until the queue is
empty.  The steps of all threads come in any order.
-/

namespace EpollHttp
namespace HandOff

/-- Where a thread stands in `enqueueClientFd`. -/
inductive Producer
  | outside
  /-- Behind `push`, in front of `eventfd_write`. -/
  | notifying
  deriving DecidableEq

/-- Where the loop stands. -/
inductive Consumer
  | waiting
  /-- `epoll_wait` returned an entry for `eventFd` that `process` was not called for yet. -/
  | reported
  /-- In the loop of `checkNewFd`. -/
  | checkingNewFd
  /-- `process` returned `ProcessResult::shutdown`. -/
  | shutdown
  deriving DecidableEq

end HandOff

open HandOff (Producer Consumer)
open Program

/-- The threads that accept are of any number; `pushed` and `popped` are the descriptors that
went in and out so far. -/
structure HandOff (T : Type) where
  newFdsQueue : List NewFdData
  eventFd : Nat
  producer : T → Producer
  consumer : Consumer
  pushed : List NewFdData
  popped : List NewFdData

namespace HandOff

variable {T : Type}

def start : HandOff T where
  newFdsQueue := []
  eventFd := 0
  producer := fun _ => .outside
  consumer := .waiting
  pushed := []
  popped := []

/-- `newFdsQueue.push` -/
def push (newFdsQueue : List NewFdData) (fdData : NewFdData) : Option (List NewFdData) :=
  if queueCapacity ≤ newFdsQueue.length then none else some (newFdsQueue ++ [fdData])

/-- `eventfd_write(eventFd, 1)` -/
def eventfdWrite (count : Nat) : Nat := count + 1

/-- `eventfd_read` of an `EFD_SEMAPHORE` that does not block -/
def eventfdRead : Nat → Option Nat
  | 0 => none
  | count + 1 => some count

inductive Action (T : Type)
  | push (t : T) (fdData : NewFdData)
  | eventfdWrite (t : T)
  /-- `epoll_wait` finds `eventFd` readable. -/
  | report
  /-- `NewFdExecutor::process` up to the call of `checkNewFd` -/
  | eventfdRead
  /-- One round of the loop of `checkNewFd` -/
  | pop

variable [DecidableEq T]

def setProducer (s : HandOff T) (t : T) (p : Producer) : T → Producer :=
  fun u => if u = t then p else s.producer u

/-- A step, where the thread stands in front of it. -/
def step (s : HandOff T) : Action T → Option (HandOff T)
  | .push t fdData =>
    if s.producer t = .outside then
      match push s.newFdsQueue fdData with
      | none => some s
      | some newFdsQueue =>
        some { s with
          newFdsQueue := newFdsQueue
          producer := s.setProducer t .notifying
          pushed := s.pushed ++ [fdData] }
    else none
  | .eventfdWrite t =>
    if s.producer t = .notifying then
      some { s with
        eventFd := eventfdWrite s.eventFd
        producer := s.setProducer t .outside }
    else none
  | .report =>
    if s.consumer = .waiting ∧ 0 < s.eventFd then some { s with consumer := .reported } else none
  | .eventfdRead =>
    if s.consumer = .reported then
      match eventfdRead s.eventFd with
      | none => some { s with consumer := .shutdown }
      | some count => some { s with eventFd := count, consumer := .checkingNewFd }
    else none
  | .pop =>
    if s.consumer = .checkingNewFd then
      match s.newFdsQueue with
      | [] => some { s with consumer := .waiting }
      | fdData :: rest => some { s with newFdsQueue := rest, popped := s.popped ++ [fdData] }
    else none

/-! ## What a step does -/

theorem push_eq_some {newFdsQueue q : List NewFdData} {fdData : NewFdData}
    (h : push newFdsQueue fdData = some q) :
    newFdsQueue.length < queueCapacity ∧ q = newFdsQueue ++ [fdData] := by
  unfold push at h
  split at h
  · cases h
  · rename_i hroom
    exact ⟨Nat.lt_of_not_le hroom, (Option.some.inj h).symm⟩

/-- What the steps leave behind, with what they found. -/
inductive Stepped (s : HandOff T) : HandOff T → Prop
  | refused : Stepped s s
  | pushed (t : T) (fdData : NewFdData) (room : s.newFdsQueue.length < queueCapacity) :
    Stepped s { s with
      newFdsQueue := s.newFdsQueue ++ [fdData]
      producer := s.setProducer t .notifying
      pushed := s.pushed ++ [fdData] }
  | written (t : T) :
    Stepped s { s with eventFd := s.eventFd + 1, producer := s.setProducer t .outside }
  | reported (readable : 0 < s.eventFd) : Stepped s { s with consumer := .reported }
  | read (count : Nat) : Stepped s { s with eventFd := count, consumer := .checkingNewFd }
  | shutdown (reported : s.consumer = .reported) (unreadable : s.eventFd = 0) :
    Stepped s { s with consumer := .shutdown }
  | popped (fdData : NewFdData) (rest : List NewFdData) (checking : s.consumer = .checkingNewFd)
    (front : s.newFdsQueue = fdData :: rest) :
    Stepped s { s with newFdsQueue := rest, popped := s.popped ++ [fdData] }
  | drained (empty : s.newFdsQueue = []) : Stepped s { s with consumer := .waiting }

theorem step_cases {s s' : HandOff T} {a : Action T} (h : s.step a = some s') : Stepped s s' := by
  cases a with
  | push t fdData =>
    simp only [step] at h
    split at h
    · split at h
      · cases h
        exact .refused
      · rename_i hpush
        cases h
        obtain ⟨hroom, rfl⟩ := push_eq_some hpush
        exact .pushed t fdData hroom
    · cases h
  | eventfdWrite t =>
    simp only [step] at h
    split at h
    · cases h
      exact .written t
    · cases h
  | report =>
    simp only [step] at h
    split at h
    · rename_i hready
      cases h
      exact .reported hready.2
    · cases h
  | eventfdRead =>
    simp only [step] at h
    split at h
    · rename_i hreported
      split at h
      · rename_i hread
        cases h
        refine .shutdown hreported ?_
        cases hcount : s.eventFd with
        | zero => rfl
        | succ count =>
          rw [hcount] at hread
          cases hread
      · rename_i count _
        cases h
        exact .read count
    · cases h
  | pop =>
    simp only [step] at h
    split at h
    · rename_i hchecking
      split at h
      · rename_i hempty
        cases h
        exact .drained hempty
      · rename_i fdData rest hqueue
        cases h
        exact .popped fdData rest hchecking hqueue
    · cases h

/-! ## What holds between the steps -/

/-- Someone is about to look into the queue. -/
def Noticed (s : HandOff T) : Prop :=
  0 < s.eventFd ∨ (∃ t, s.producer t = .notifying) ∨ s.consumer = .checkingNewFd

structure Inv (s : HandOff T) : Prop where
  bounded : s.newFdsQueue.length ≤ queueCapacity
  noticed : s.newFdsQueue ≠ [] → s.Noticed
  readable : s.consumer = .reported → 0 < s.eventFd
  running : s.consumer ≠ .shutdown

theorem step_inv {s s' : HandOff T} {a : Action T} (hinv : s.Inv) (h : s.step a = some s') :
    s'.Inv := by
  cases step_cases h with
  | refused => exact hinv
  | pushed t fdData room =>
    refine ⟨?_, fun _ => Or.inr (Or.inl ⟨t, if_pos rfl⟩), hinv.readable, hinv.running⟩
    show (s.newFdsQueue ++ [fdData]).length ≤ queueCapacity
    rw [List.length_append]
    exact room
  | written t =>
    exact ⟨hinv.bounded, fun _ => Or.inl (Nat.succ_pos _), fun _ => Nat.succ_pos _, hinv.running⟩
  | reported readable =>
    exact ⟨hinv.bounded, fun _ => Or.inl readable, fun _ => readable, (fun hc => nomatch hc)⟩
  | read count =>
    exact ⟨hinv.bounded, fun _ => Or.inr (Or.inr rfl), (fun hc => nomatch hc),
      (fun hc => nomatch hc)⟩
  | shutdown reported unreadable =>
    exact absurd (hinv.readable reported) (by omega)
  | popped fdData rest checking front =>
    refine ⟨?_, fun _ => Or.inr (Or.inr checking), hinv.readable, hinv.running⟩
    have hbound := hinv.bounded
    rw [front] at hbound
    exact Nat.le_of_succ_le hbound
  | drained empty =>
    exact ⟨hinv.bounded, fun hne => absurd empty hne, (fun hc => nomatch hc),
      (fun hc => nomatch hc)⟩

/-- The queue passes on what it is given, in order. -/
def Passes (s : HandOff T) (q : Fifo NewFdData) : Prop :=
  q.put = s.pushed ∧ q.got = s.popped ∧ q.held = s.newFdsQueue

theorem step_passes {s s' : HandOff T} {a : Action T} {q : Fifo NewFdData} (hq : s.Passes q)
    (h : s.step a = some s') : ∃ q', s'.Passes q' := by
  obtain ⟨hput, hgot, hheld⟩ := hq
  cases step_cases h with
  | pushed t fdData room =>
    refine ⟨q.write [fdData], ?_, hgot, ?_⟩
    · show q.put ++ [fdData] = s.pushed ++ [fdData]
      rw [hput]
    · show q.held ++ [fdData] = s.newFdsQueue ++ [fdData]
      rw [hheld]
  | popped fdData rest checking front =>
    refine ⟨q.read 1, hput, ?_, ?_⟩
    · show q.got ++ q.held.take 1 = s.popped ++ [fdData]
      rw [hgot, hheld, front]
      rfl
    · show q.held.drop 1 = rest
      rw [hheld, front]
      rfl
  | _ => exact ⟨q, hput, hgot, hheld⟩

/-! ## Runs -/

omit [DecidableEq T] in
theorem start_inv : (start : HandOff T).Inv :=
  ⟨Nat.zero_le _, fun h => absurd rfl h, (fun h => nomatch h), (fun h => nomatch h)⟩

theorem run_inv {s : HandOff T} {as : List (Action T)} (h : Run.run step start as = some s) :
    s.Inv :=
  Run.run_invariant (fun _ _ _ hinv hstep => step_inv hinv hstep) start_inv h

theorem run_passes {s : HandOff T} {as : List (Action T)} (h : Run.run step start as = some s) :
    ∃ q, s.Passes q := by
  have hstart : ∃ q, (start : HandOff T).Passes q := ⟨Fifo.empty, rfl, rfl, rfl⟩
  refine Run.run_invariant (P := fun s => ∃ q, Passes s q) ?_ hstart h
  intro s a s' hs hstep
  obtain ⟨q, hq⟩ := hs
  exact step_passes hq hstep

theorem run_pushed {s : HandOff T} {as : List (Action T)} (h : Run.run step start as = some s) :
    s.pushed = s.popped ++ s.newFdsQueue := by
  obtain ⟨q, hput, hgot, hheld⟩ := run_passes h
  rw [← hput, ← hgot, ← hheld]
  exact q.order

/-- What was popped is the first part of what was pushed and what is left is in the queue; a
queue that is not empty will be looked into; and `eventfd_read` finds a positive counter. -/
theorem run_handOff {s : HandOff T} {as : List (Action T)}
    (h : Run.run step start as = some s) :
    s.popped <+: s.pushed ∧ s.pushed = s.popped ++ s.newFdsQueue ∧
      (s.newFdsQueue ≠ [] → s.Noticed) ∧
      (s.consumer = .reported → 0 < s.eventFd) ∧ s.consumer ≠ .shutdown := by
  obtain ⟨q, hput, hgot, _⟩ := run_passes h
  have hinv := run_inv h
  refine ⟨?_, run_pushed h, hinv.noticed, hinv.readable, hinv.running⟩
  rw [← hput, ← hgot]
  exact q.got_front

/-- Two threads push, one of them writes, and the loop pops the first descriptor. -/
def ofTwo : List (Action Bool) :=
  [.push false ⟨.request, 7⟩, .push true ⟨.request, 8⟩, .eventfdWrite false, .report,
    .eventfdRead, .pop]

theorem run_handOff_two : ∃ s : HandOff Bool, Run.run step start ofTwo = some s ∧
    s.popped = [⟨.request, 7⟩] ∧ s.popped <+: s.pushed ∧
    s.pushed = s.popped ++ s.newFdsQueue ∧ (s.newFdsQueue ≠ [] → s.Noticed) ∧
    (s.consumer = .reported → 0 < s.eventFd) ∧ s.consumer ≠ .shutdown :=
  ⟨_, rfl, rfl, run_handOff (rfl : Run.run step start ofTwo = some _)⟩

/-- Left alone, the loop of `checkNewFd` pops all there is. -/
theorem pops_all {s : HandOff T} (h : s.consumer = .checkingNewFd) :
    ∃ s', Run.run step s (List.replicate (s.newFdsQueue.length + 1) .pop) = some s' ∧
      s'.popped = s.popped ++ s.newFdsQueue ∧ s'.pushed = s.pushed ∧ s'.consumer = .waiting := by
  induction hq : s.newFdsQueue generalizing s with
  | nil => simp [Run.run, step, h, hq]
  | cons fdData rest ih =>
    have hpop : s.step .pop =
        some { s with newFdsQueue := rest, popped := s.popped ++ [fdData] } := by
      simp [step, h, hq]
    obtain ⟨s', hrun, hpopped, hpushed, hwaiting⟩ :=
      ih (s := { s with newFdsQueue := rest, popped := s.popped ++ [fdData] }) h rfl
    refine ⟨s', ?_, ?_, hpushed, hwaiting⟩
    · rw [List.length_cons, List.replicate_succ, Run.run, hpop]
      exact hrun
    · rw [hpopped, List.append_assoc]
      rfl

/-- When no thread is about to write, the waiting loop has popped everything, or is woken up and
then pops everything. -/
theorem wakes_up {s : HandOff T} {as : List (Action T)}
    (h : Run.run step start as = some s) (hwaiting : s.consumer = .waiting)
    (hthreads : ∀ t, s.producer t = .outside) :
    s.popped = s.pushed ∨ ∃ s', Run.run step s
      (.report :: .eventfdRead :: List.replicate (s.newFdsQueue.length + 1) .pop) = some s' ∧
      s'.popped = s'.pushed := by
  have hpushed := run_pushed h
  by_cases hempty : s.newFdsQueue = []
  · left
    rw [hpushed, hempty, List.append_nil]
  · right
    have hpos : 0 < s.eventFd := by
      rcases (run_inv h).noticed hempty with hpos | ⟨t, ht⟩ | hchecking
      · exact hpos
      · rw [hthreads t] at ht
        cases ht
      · rw [hwaiting] at hchecking
        cases hchecking
    obtain ⟨count, hcount⟩ := Nat.exists_eq_succ_of_ne_zero (Nat.ne_of_gt hpos)
    have hreport : s.step .report = some { s with consumer := .reported } := by
      simp [step, hwaiting, hpos]
    have hread : step { s with consumer := .reported } .eventfdRead =
        some { s with eventFd := count, consumer := .checkingNewFd } := by
      simp [step, hcount, eventfdRead]
    obtain ⟨s', hrun, hpopped, hsame, _⟩ :=
      pops_all (s := { s with eventFd := count, consumer := .checkingNewFd }) rfl
    refine ⟨s', ?_, ?_⟩
    · rw [Run.run, hreport]
      show Run.run step _ _ = _
      rw [Run.run, hread]
      exact hrun
    · rw [hpopped, hsame]
      exact hpushed.symm

/-! ## The programs of the loops -/

/-- What `enqueueClientFd` does in the world are the two steps of a thread that calls it. -/
theorem enqueueClientFd_steps {w : World} {l : Nat} {fd : Int} {execType : ExecutorType}
    {s : HandOff T} {t : T} (hqueue : s.newFdsQueue = (w.loops l).newFdsQueue)
    (ht : s.producer t = .outside) :
    Ensures (enqueueClientFd l fd execType) w (fun result w' =>
      ∃ s', s'.newFdsQueue = (w'.loops l).newFdsQueue ∧ s'.producer t = .outside ∧
        if result = 0 then
          Run.run step s [.push t { execType := execType, fd := fd }, .eventfdWrite t] = some s'
        else Run.run step s [.push t { execType := execType, fd := fd }] = some s') := by
  simp only [enqueueClientFd, ensures_bind, ensures_getLoop, ensures_ite, ensures_pure,
    ensures_modifyLoop]
  constructor
  · intro hfull
    refine ⟨s, hqueue, ht, ?_⟩
    simp [Run.run, step, push, ht, hqueue, hfull]
  · intro hroom
    simp [Run.run, step, push, ht, hroom, setProducer, hqueue]

end HandOff

/-- Where the loop stands, once its thread has read `eventFd`. -/
def Phase.consumer : Phase → Consumer
  | .checkingNewFd _ _ _ => .checkingNewFd
  | .closingAgain _ next => next.consumer
  | .destroyed => .shutdown
  | _ => .waiting

namespace HandOff

/-- The queue and the place are those of the loop in the world. -/
structure Reflects {T : Type} (s : HandOff T) (w : World) (l : Nat) : Prop where
  newFdsQueue : s.newFdsQueue = (w.loops l).newFdsQueue
  consumer : s.consumer = (w.loops l).phase.consumer

section
variable {T : Type} [DecidableEq T] {s : HandOff T} {w : World} {ans : Answers} {l r : Nat}
variable {curMillis : Int} {pending : List EpollEvent}

omit [DecidableEq T] in
theorem reflects_setPhase (hqueue : s.newFdsQueue = (w.loops l).newFdsQueue) {phase : Phase}
    (hconsumer : s.consumer = phase.consumer) :
    Ensures (setPhase l phase) w (fun _ w' => s.Reflects w' l) := by
  rw [setPhase, ensures_modifyLoop]
  constructor
  · rw [World.setLoop_self]
    exact hqueue
  · rw [World.setLoop_self]
    exact hconsumer

omit [DecidableEq T] in
theorem reflects_destroy (h : Ledger none w) (hqueue : s.newFdsQueue = (w.loops l).newFdsQueue)
    (hconsumer : s.consumer = .shutdown) :
    Ensures (destroy l) w (fun _ w' => s.Reflects w' l) := by
  refine (destroy_spec h.booked h.kernel h.looseEpoll).mono (fun _ w' hd => ?_)
  obtain ⟨execDatas, hloop⟩ := hd.loop
  constructor
  · rw [hloop]
    exact hqueue
  · rw [hloop, hconsumer]
    dsimp only
    split
    · rfl
    · rfl

/-- `NewFdExecutor::process` reads `eventFd` in front of `checkNewFd`; an `eventfd_read` that fails
ends the loop. -/
theorem startCheckNewFd_step (h : Ledger none w)
    (hqueue : s.newFdsQueue = (w.loops l).newFdsQueue) (hreported : s.consumer = .reported)
    (hread : ans.eventfdRead = (eventfdRead s.eventFd).isSome) :
    Ensures (startCheckNewFd ans l r curMillis pending) w (fun _ w' =>
      ∃ s', s.step .eventfdRead = some s' ∧ s'.Reflects w' l) := by
  rw [startCheckNewFd, hread, ensures_ite]
  cases hcount : eventfdRead s.eventFd with
  | none =>
    refine ⟨fun hsome => absurd hsome Bool.false_ne_true, fun _ => ?_⟩
    refine (reflects_destroy (s := { s with consumer := .shutdown }) h hqueue rfl).mono
      (fun _ w' hw' => ⟨_, ?_, hw'⟩)
    simp [step, hreported, hcount]
  | some count =>
    refine ⟨fun _ => ?_, fun hnone => absurd rfl hnone⟩
    refine (reflects_setPhase (s := { s with eventFd := count, consumer := .checkingNewFd })
      hqueue rfl).mono (fun _ w' hw' => ⟨_, ?_, hw'⟩)
    simp [step, hreported, hcount]

omit [DecidableEq T] in
/-- What comes behind the last round of `checkNewFd` leaves the queue alone. -/
theorem finishProcess_reflects (hb : Booked w) (huse : w.InUse l r)
    (hqueue : s.newFdsQueue = (w.loops l).newFdsQueue) (hwaiting : s.consumer = .waiting) :
    Ensures (finishProcess l r curMillis pending .ok) w (fun _ w' => s.Reflects w' l) := by
  rw [finishProcess, ensures_bind, ensures_getData, ensures_ite, ensures_bind, ensures_bind]
  refine ⟨fun _ => ?_, fun _ => ?_⟩
  · refine (removeExecutorData_spec hb huse).mono (fun _ w1 ht => ?_)
    exact reflects_setPhase (hqueue.trans (ht.frame.newFdsQueue l).symm) hwaiting
  · rw [ensures_modifyData]
    exact reflects_setPhase (hqueue.trans ((SameFrame.setData w _).newFdsQueue l).symm) hwaiting

/-- A round of `checkNewFd` pops one descriptor, whatever becomes of its executor. -/
theorem checkNewFd_step (h : Steady w)
    (hphase : (w.loops l).phase = .checkingNewFd r curMillis pending) (hs : s.Reflects w l) :
    Ensures (checkNewFd ans l r curMillis pending) w (fun _ w' =>
      ∃ s', s.step .pop = some s' ∧ s'.Reflects w' l) := by
  have hchecking : s.consumer = .checkingNewFd := by
    rw [hs.consumer, hphase]
    rfl
  have huse : w.InUse l r := h.checking l r (by rw [hphase]; rfl)
  rw [checkNewFd, ensures_bind, ensures_getLoop]
  cases hqueue : (w.loops l).newFdsQueue with
  | nil =>
    have hempty : s.newFdsQueue = [] := hs.newFdsQueue.trans hqueue
    refine (finishProcess_reflects (s := { s with consumer := .waiting }) h.ledger.booked huse
      hs.newFdsQueue rfl).mono (fun _ w' hw' => ⟨_, ?_, hw'⟩)
    simp [step, hchecking, hempty]
  | cons d rest =>
    have hfront : s.newFdsQueue = d :: rest := hs.newFdsQueue.trans hqueue
    have hpop : s.step .pop =
        some { s with newFdsQueue := rest, popped := s.popped ++ [d] } := by
      simp [step, hchecking, hfront]
    dsimp only
    rw [ensures_bind, ensures_modifyLoop, ensures_bind]
    refine (firstQueued_created h.ledger hqueue).mono (fun result w2 hc => ?_)
    have hqueue2 : rest = (w2.loops l).newFdsQueue := by
      rw [hc.frame.newFdsQueue l, World.setLoop_self]
    have hphase2 : (w2.loops l).phase = .checkingNewFd r curMillis pending := by
      rw [hc.frame.phase l, World.setLoop_self]
      exact hphase
    rw [ensures_when]
    refine ⟨fun _ => ?_, fun _ => ⟨_, hpop, hqueue2, ?_⟩⟩
    · exact (reflects_setPhase hqueue2 hchecking).mono (fun _ w' hw' => ⟨_, hpop, hw'⟩)
    · rw [hphase2]
      exact hchecking

/-- From the `eventfd_read` on until `checkNewFd` returns, a step of the thread pops, or it closes
the descriptor that it popped before. -/
theorem continueLoop_steps (h : Steady w)
    (hchecking : (w.loops l).phase.consumer = .checkingNewFd) (hs : s.Reflects w l) :
    Ensures (continueLoop ans l) w (fun _ w' =>
      s.Reflects w' l ∨ ∃ s', s.step .pop = some s' ∧ s'.Reflects w' l) := by
  rw [continueLoop, ensures_bind, ensures_getLoop]
  cases hphase : (w.loops l).phase with
  | checkingNewFd r curMillis pending =>
    exact (checkNewFd_step h hphase hs).mono (fun _ _ h' => Or.inr h')
  | closingAgain fd next =>
    dsimp only
    rw [ensures_bind, ensures_close]
    refine (reflects_setPhase (w := w.setKernel (w.kernel.close fd)) hs.newFdsQueue ?_).mono
      (fun _ _ h' => Or.inl h')
    rw [hs.consumer, hphase]
    rfl
  | _ =>
    rw [hphase] at hchecking
    cases hchecking

end

end HandOff
end EpollHttp
