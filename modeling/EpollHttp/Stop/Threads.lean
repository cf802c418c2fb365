import EpollHttp.HandOff

/-
How the server is stopped.

`Server::stop` stores false into the `runFlag` of each loop, writes to its `eventFd`, joins the
threads and deletes the loops.  Every thread stores true into its own flag when it begins.  The steps
come in any order, and `epoll_wait` may return at any time.
-/

namespace EpollHttp
namespace ServerStop

open HandOff (eventfdRead eventfdWrite)

/-- Where the thread of a loop stands. -/
inductive Thread
  /-- In front of `runFlag.store(true)`. -/
  | created
  /-- In front of the condition of `while`. -/
  | testing
  /-- In `epoll_wait`. -/
  | polling
  /-- Behind `epoll_wait`, which returned so many entries. -/
  | polled (nEvents : Nat)
  /-- So many entries are left to be handled. -/
  | handling (left : Nat)
  /-- In `destroy`. -/
  | leaving
  /-- Behind `run`. -/
  | ended
  deriving DecidableEq

/-- Where the main thread stands; `storing i` and `joining i` are in front of a round of the loops of
`stop`. -/
inductive Main
  | serving
  | storing (i : Nat)
  /-- Behind `runFlag.store(false)`, in front of `eventfd_write`. -/
  | notifying (i : Nat)
  | joining (i : Nat)
  /-- Behind `delete[] loops`. -/
  | stopped
  deriving DecidableEq

end ServerStop

open ServerStop (Thread Main)

structure ServerStop where
  thread : Nat → Thread
  runFlag : Nat → Bool
  eventFd : Nat → Nat
  main : Main

namespace ServerStop

open HandOff (eventfdRead eventfdWrite)

/-- Behind `start`.  The flags are assigned by the threads. -/
def start (runFlag : Nat → Bool) : ServerStop where
  thread := fun _ => .created
  runFlag := runFlag
  eventFd := fun _ => 0
  main := .serving

inductive Action
  /-- `runFlag.store(true)` at the beginning of `run` -/
  | begin (i : Nat)
  /-- The condition of `while`; `epollFd` is positive until `destroy`. -/
  | test (i : Nat)
  | poll (i nEvents : Nat)
  /-- `epoll_wait` returns `EINTR`. -/
  | interrupt (i : Nat)
  /-- `epoll_wait` returns another error. -/
  | pollError (i : Nat)
  /-- `if(!runFlag.load())` behind `epoll_wait` -/
  | check (i : Nat)
  /-- An entry is handled that is none of the following. -/
  | handle (i : Nat)
  /-- The entry of `eventFd` is handled. -/
  | eventfdRead (i : Nat)
  /-- An entry is handled for which a connection is queued for the loop `j`. -/
  | enqueue (i j : Nat)
  /-- `process` returns `ProcessResult::shutdown`. -/
  | shutdown (i : Nat)
  /-- Every entry was handled. -/
  | endRound (i : Nat)
  /-- `destroy` and `run` return. -/
  | leave (i : Nat)
  /-- The loop of `main` ends. -/
  | stop
  /-- `runFlag.store(false)` in `PollLoop::stop` -/
  | store
  /-- `eventfd_write` in `PollLoop::stop` -/
  | notify
  | join
  deriving DecidableEq

def setThread (s : ServerStop) (i : Nat) (t : Thread) : ServerStop :=
  { s with thread := Function.update s.thread i t }

/-- The counter of the loop `j` is written to; a loop that was destroyed has no `eventFd` left. -/
def write (s : ServerStop) (j : Nat) : ServerStop :=
  if s.thread j = .ended then s
  else { s with eventFd := Function.update s.eventFd j (eventfdWrite (s.eventFd j)) }

/-- A step, where the thread stands in front of it; `n` is the number of the loops. -/
def step (n : Nat) (s : ServerStop) : Action → Option ServerStop
  | .begin i =>
    if i < n ∧ s.thread i = .created then
      some { s.setThread i .testing with runFlag := Function.update s.runFlag i true }
    else none
  | .test i =>
    if i < n ∧ s.thread i = .testing then
      some (s.setThread i (if s.runFlag i then .polling else .leaving))
    else none
  | .poll i nEvents =>
    if i < n ∧ s.thread i = .polling ∧ nEvents ≤ MAX_EPOLL_EVENTS then
      some (s.setThread i (.polled nEvents))
    else none
  | .interrupt i =>
    if i < n ∧ s.thread i = .polling then some (s.setThread i .testing) else none
  | .pollError i =>
    if i < n ∧ s.thread i = .polling then some (s.setThread i .leaving) else none
  | .check i =>
    match s.thread i with
    | .polled nEvents =>
      if i < n then some (s.setThread i (if s.runFlag i then .handling nEvents else .leaving))
      else none
    | _ => none
  | .handle i =>
    match s.thread i with
    | .handling (left + 1) => if i < n then some (s.setThread i (.handling left)) else none
    | _ => none
  | .eventfdRead i =>
    match s.thread i with
    | .handling (left + 1) =>
      if i < n then
        match eventfdRead (s.eventFd i) with
        | none => some (s.setThread i .leaving)
        | some count =>
          some { s.setThread i (.handling left) with
            eventFd := Function.update s.eventFd i count }
      else none
    | _ => none
  | .enqueue i j =>
    match s.thread i with
    | .handling (left + 1) =>
      if i < n ∧ j < n then some ((s.setThread i (.handling left)).write j) else none
    | _ => none
  | .shutdown i =>
    match s.thread i with
    | .handling (_ + 1) => if i < n then some (s.setThread i .leaving) else none
    | _ => none
  | .endRound i =>
    if i < n ∧ s.thread i = .handling 0 then some (s.setThread i .testing) else none
  | .leave i => if i < n ∧ s.thread i = .leaving then some (s.setThread i .ended) else none
  | .stop => if s.main = .serving then some { s with main := .storing 0 } else none
  | .store =>
    match s.main with
    | .storing i =>
      if i < n then
        some { s with runFlag := Function.update s.runFlag i false, main := .notifying i }
      else some { s with main := .joining 0 }
    | _ => none
  | .notify =>
    match s.main with
    | .notifying i => some { s.write i with main := .storing (i + 1) }
    | _ => none
  | .join =>
    match s.main with
    | .joining i =>
      if i < n then if s.thread i = .ended then some { s with main := .joining (i + 1) } else none
      else some { s with main := .stopped }
    | _ => none

/-! ## What a step does -/

/-- A move of one thread that depends on its own flag only. -/
inductive Goes (runFlag : Bool) : Thread → Thread → Prop
  | enter (h : runFlag = true) : Goes runFlag .testing .polling
  | leave (h : runFlag = false) : Goes runFlag .testing .leaving
  | polled (nEvents : Nat) (h : nEvents ≤ MAX_EPOLL_EVENTS) : Goes runFlag .polling (.polled nEvents)
  | interrupted : Goes runFlag .polling .testing
  | goOn (nEvents : Nat) (h : runFlag = true) : Goes runFlag (.polled nEvents) (.handling nEvents)
  | broke (nEvents : Nat) (h : runFlag = false) : Goes runFlag (.polled nEvents) .leaving
  | handled (left : Nat) : Goes runFlag (.handling (left + 1)) (.handling left)
  | round : Goes runFlag (.handling 0) .testing
  | returned : Goes runFlag .leaving .ended

/-- An error that ends a thread. -/
def Thread.MayFail : Thread → Prop
  | .polling => True
  | .handling (_ + 1) => True
  | _ => False

/-- A step of the main thread. -/
inductive Advances (n : Nat) (s : ServerStop) : Action → ServerStop → Prop
  | stop (h : s.main = .serving) : Advances n s .stop { s with main := .storing 0 }
  | store (i : Nat) (h : s.main = .storing i) (hi : i < n) : Advances n s .store
      { s with runFlag := Function.update s.runFlag i false, main := .notifying i }
  | stored (i : Nat) (h : s.main = .storing i) (hi : ¬ i < n) :
      Advances n s .store { s with main := .joining 0 }
  | notify (i : Nat) (h : s.main = .notifying i) :
      Advances n s .notify { s.write i with main := .storing (i + 1) }
  | join (i : Nat) (h : s.main = .joining i) (hi : i < n) (hended : s.thread i = .ended) :
      Advances n s .join { s with main := .joining (i + 1) }
  | delete (i : Nat) (h : s.main = .joining i) (hi : ¬ i < n) :
      Advances n s .join { s with main := .stopped }

/-- What a step leaves behind, with what it found. -/
inductive Stepped (n : Nat) (s : ServerStop) : Action → ServerStop → Prop
  | began (i : Nat) (hi : i < n) (h : s.thread i = .created) : Stepped n s (.begin i)
      { s.setThread i .testing with runFlag := Function.update s.runFlag i true }
  | moved (a : Action) (i : Nat) (t : Thread) (hi : i < n) (h : Goes (s.runFlag i) (s.thread i) t) :
      Stepped n s a (s.setThread i t)
  | read (i left count : Nat) (hi : i < n) (h : s.thread i = .handling (left + 1)) :
      Stepped n s (.eventfdRead i)
        { s.setThread i (.handling left) with eventFd := Function.update s.eventFd i count }
  | queued (i j left : Nat) (hi : i < n) (h : s.thread i = .handling (left + 1)) :
      Stepped n s (.enqueue i j) ((s.setThread i (.handling left)).write j)
  | failed (a : Action) (i : Nat) (hi : i < n) (h : (s.thread i).MayFail)
      (ha : a = .pollError i ∨ a = .shutdown i ∨ (a = .eventfdRead i ∧ s.eventFd i = 0)) :
      Stepped n s a (s.setThread i .leaving)
  | main (a : Action) (s' : ServerStop) (h : Advances n s a s') : Stepped n s a s'

theorem goes_test (runFlag : Bool) :
    Goes runFlag .testing (if runFlag then .polling else .leaving) := by
  cases runFlag with
  | true => exact .enter rfl
  | false => exact .leave rfl

theorem goes_check (runFlag : Bool) (nEvents : Nat) :
    Goes runFlag (.polled nEvents) (if runFlag then .handling nEvents else .leaving) := by
  cases runFlag with
  | true => exact .goOn nEvents rfl
  | false => exact .broke nEvents rfl

section
variable {n : Nat} {s s' : ServerStop} {a : Action} {i j : Nat} {as : List Action}

theorem step_cases (h : step n s a = some s') : Stepped n s a s' := by
  cases a with
  | begin i =>
    simp only [step, Option.ite_none_right_eq_some, Option.some.injEq] at h
    obtain ⟨⟨hi, ht⟩, rfl⟩ := h
    exact .began i hi ht
  | test i =>
    simp only [step, Option.ite_none_right_eq_some, Option.some.injEq] at h
    obtain ⟨⟨hi, ht⟩, rfl⟩ := h
    exact .moved _ i _ hi (ht ▸ goes_test _)
  | poll i nEvents =>
    simp only [step, Option.ite_none_right_eq_some, Option.some.injEq] at h
    obtain ⟨⟨hi, ht, hmax⟩, rfl⟩ := h
    exact .moved _ i _ hi (ht ▸ .polled nEvents hmax)
  | interrupt i =>
    simp only [step, Option.ite_none_right_eq_some, Option.some.injEq] at h
    obtain ⟨⟨hi, ht⟩, rfl⟩ := h
    exact .moved _ i _ hi (ht ▸ .interrupted)
  | pollError i =>
    simp only [step, Option.ite_none_right_eq_some, Option.some.injEq] at h
    obtain ⟨⟨hi, ht⟩, rfl⟩ := h
    exact .failed _ i hi (ht ▸ trivial) (Or.inl rfl)
  | check i =>
    simp only [step] at h
    split at h
    · rename_i nEvents ht
      simp only [Option.ite_none_right_eq_some, Option.some.injEq] at h
      obtain ⟨hi, rfl⟩ := h
      exact .moved _ i _ hi (ht ▸ goes_check _ nEvents)
    · cases h
  | handle i =>
    simp only [step] at h
    split at h
    · rename_i left ht
      simp only [Option.ite_none_right_eq_some, Option.some.injEq] at h
      obtain ⟨hi, rfl⟩ := h
      exact .moved _ i _ hi (ht ▸ .handled left)
    · cases h
  | eventfdRead i =>
    simp only [step] at h
    split at h
    · rename_i left ht
      simp only [Option.ite_none_right_eq_some] at h
      obtain ⟨hi, h⟩ := h
      split at h
      · rename_i hread
        obtain rfl := Option.some.inj h
        refine .failed _ i hi (ht ▸ trivial) (Or.inr (Or.inr ⟨rfl, ?_⟩))
        cases hcount : s.eventFd i with
        | zero => rfl
        | succ count =>
          rw [hcount] at hread
          cases hread
      · obtain rfl := Option.some.inj h
        exact .read i left _ hi ht
    · cases h
  | enqueue i j =>
    simp only [step] at h
    split at h
    · rename_i left ht
      simp only [Option.ite_none_right_eq_some, Option.some.injEq] at h
      obtain ⟨⟨hi, _⟩, rfl⟩ := h
      exact .queued i j left hi ht
    · cases h
  | shutdown i =>
    simp only [step] at h
    split at h
    · rename_i left ht
      simp only [Option.ite_none_right_eq_some, Option.some.injEq] at h
      obtain ⟨hi, rfl⟩ := h
      exact .failed _ i hi (ht ▸ trivial) (Or.inr (Or.inl rfl))
    · cases h
  | endRound i =>
    simp only [step, Option.ite_none_right_eq_some, Option.some.injEq] at h
    obtain ⟨⟨hi, ht⟩, rfl⟩ := h
    exact .moved _ i _ hi (ht ▸ .round)
  | leave i =>
    simp only [step, Option.ite_none_right_eq_some, Option.some.injEq] at h
    obtain ⟨⟨hi, ht⟩, rfl⟩ := h
    exact .moved _ i _ hi (ht ▸ .returned)
  | stop =>
    simp only [step, Option.ite_none_right_eq_some, Option.some.injEq] at h
    obtain ⟨hmain, rfl⟩ := h
    exact .main _ _ (.stop hmain)
  | store =>
    simp only [step] at h
    split at h
    · rename_i i hmain
      split at h
      · rename_i hi
        obtain rfl := Option.some.inj h
        exact .main _ _ (.store i hmain hi)
      · rename_i hi
        obtain rfl := Option.some.inj h
        exact .main _ _ (.stored i hmain hi)
    · cases h
  | notify =>
    simp only [step] at h
    split at h
    · rename_i i hmain
      obtain rfl := Option.some.inj h
      exact .main _ _ (.notify i hmain)
    · cases h
  | join =>
    simp only [step] at h
    split at h
    · rename_i i hmain
      split at h
      · rename_i hi
        simp only [Option.ite_none_right_eq_some, Option.some.injEq] at h
        obtain ⟨hended, rfl⟩ := h
        exact .main _ _ (.join i hmain hi hended)
      · rename_i hi
        obtain rfl := Option.some.inj h
        exact .main _ _ (.delete i hmain hi)
    · cases h

/-! ## What a step leaves alone -/

@[simp] theorem setThread_thread (t : Thread) :
    (s.setThread i t).thread = Function.update s.thread i t := rfl

@[simp] theorem setThread_runFlag (t : Thread) : (s.setThread i t).runFlag = s.runFlag := rfl

@[simp] theorem setThread_main (t : Thread) : (s.setThread i t).main = s.main := rfl

@[simp] theorem write_thread : (s.write j).thread = s.thread := by
  unfold write
  split <;> rfl

@[simp] theorem write_runFlag : (s.write j).runFlag = s.runFlag := by
  unfold write
  split <;> rfl

@[simp] theorem write_main : (s.write j).main = s.main := by
  unfold write
  split <;> rfl

theorem le_write : s.eventFd i ≤ (s.write j).eventFd i := by
  unfold write
  split
  · exact Nat.le_refl _
  · by_cases hij : i = j
    · subst hij
      show s.eventFd i ≤ Function.update s.eventFd i (s.eventFd i + 1) i
      rw [Function.update_self]
      omega
    · exact Nat.le_of_eq (Function.update_of_ne hij ..).symm

theorem write_pos (h : s.thread i ≠ .ended) : 0 < (s.write i).eventFd i := by
  unfold write
  rw [if_neg h]
  show 0 < Function.update s.eventFd i (s.eventFd i + 1) i
  rw [Function.update_self]
  omega

/-! ## Joining -/

/-- The thread was joined. -/
def Main.Joined : Main → Nat → Prop
  | .joining k, i => i < k
  | .stopped, _ => True
  | _, _ => False

/-- A step moves one thread at most, and none that ended. -/
theorem Stepped.thread (h : Stepped n s a s') (i : Nat) : s'.thread i = s.thread i ∨
    s.thread i ≠ .ended := by
  by_cases hended : s.thread i = .ended
  · left
    have hother : ∀ {k : Nat} (t : Thread), s.thread k ≠ .ended →
        Function.update s.thread k t i = s.thread i := by
      intro k t hne
      refine Function.update_of_ne (fun heq => hne ?_) ..
      rw [← heq]
      exact hended
    cases h with
    | began k hk ht => exact hother _ (by rw [ht]; decide)
    | moved a k t hk ht =>
      refine hother t (fun heq => ?_)
      rw [heq] at ht
      cases ht
    | read k left count hk ht => exact hother _ (by rw [ht]; exact Thread.noConfusion)
    | queued k j left hk ht =>
      rw [write_thread]
      exact hother _ (by rw [ht]; exact Thread.noConfusion)
    | failed a k hk ht ha =>
      refine hother _ (fun heq => ?_)
      rw [heq] at ht
      exact ht.elim
    | main a s' h =>
      cases h with
      | notify k hmain => exact congrFun write_thread i
      | _ => rfl
  · exact Or.inr hended

theorem step_joined (hjoined : ∀ i < n, s.main.Joined i → s.thread i = .ended)
    (hstep : step n s a = some s') : ∀ i < n, s'.main.Joined i → s'.thread i = .ended := by
  intro i hi hj
  have hended : s.thread i = .ended := by
    cases step_cases hstep with
    | queued k j left hk ht =>
      rw [write_main] at hj
      exact hjoined i hi hj
    | main a s' h =>
      cases h with
      | stop hmain => exact hj.elim
      | store k hmain hk => exact hj.elim
      | stored k hmain hk => exact absurd hj (Nat.not_lt_zero i)
      | notify k hmain => exact hj.elim
      | join k hmain hk hended =>
        rcases Nat.lt_succ_iff_lt_or_eq.mp hj with hlt | rfl
        · exact hjoined i hi (by rw [hmain]; exact hlt)
        · exact hended
      | delete k hmain hk =>
        exact hjoined i hi (by rw [hmain]; exact Nat.lt_of_lt_of_le hi (Nat.not_lt.mp hk))
    | _ => exact hjoined i hi hj
  rcases (step_cases hstep).thread i with hsame | hne
  · exact hsame.trans hended
  · exact absurd hended hne

end

theorem run_joined {n : Nat} {runFlag : Nat → Bool} {as : List Action} {s : ServerStop}
    (hrun : Run.run (step n) (start runFlag) as = some s) :
    ∀ i < n, s.main.Joined i → s.thread i = .ended :=
  Run.run_invariant (P := fun s => ∀ i < n, s.main.Joined i → s.thread i = .ended)
    (fun _ _ _ hs hstep => step_joined hs hstep) (fun _ _ hj => hj.elim) hrun

/-- When the loops are deleted, every thread has ended, and nothing happens after that. -/
theorem run_deletes {n : Nat} {runFlag : Nat → Bool} {as : List Action} {s : ServerStop}
    (hrun : Run.run (step n) (start runFlag) as = some s) (hstopped : s.main = .stopped) :
    (∀ i < n, s.thread i = .ended) ∧ ∀ a, step n s a = none := by
  have hended : ∀ i < n, s.thread i = .ended := by
    intro i hi
    refine run_joined hrun i hi ?_
    rw [hstopped]
    trivial
  refine ⟨hended, fun a => ?_⟩
  cases hstep : step n s a with
  | none => rfl
  | some s' =>
    exfalso
    cases step_cases hstep with
    | began i hi ht =>
      rw [hended i hi] at ht
      cases ht
    | moved a i t hi ht =>
      rw [hended i hi] at ht
      cases ht
    | read i left count hi ht =>
      rw [hended i hi] at ht
      cases ht
    | queued i j left hi ht =>
      rw [hended i hi] at ht
      cases ht
    | failed a i hi ht ha =>
      rw [hended i hi] at ht
      exact ht.elim
    | main a s' h =>
      cases h with
      | stop hmain | store i hmain hi | stored i hmain hi | notify i hmain | join i hmain hi _
        | delete i hmain hi =>
        rw [hstopped] at hmain
        cases hmain

/-- A thread is stopped in front of `epoll_wait`. -/
def stopped : List Action :=
  [.begin 0, .stop, .store, .notify, .store, .test 0, .leave 0, .join, .join]

theorem run_deletes_stopped : ∃ s, Run.run (step 1) (start (fun _ => false)) stopped = some s ∧
    (∀ i < 1, s.thread i = .ended) ∧ ∀ a, step 1 s a = none := by
  have hrun : (Run.run (step 1) (start (fun _ => false)) stopped).map ServerStop.main =
      some .stopped := by
    decide
  obtain ⟨s, hs, hmain⟩ := Option.map_eq_some_iff.mp hrun
  exact ⟨s, hs, run_deletes hs hmain⟩

end ServerStop
end EpollHttp
