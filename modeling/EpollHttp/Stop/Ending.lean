import Mathlib.Algebra.BigOperators.Group.Finset.Basic
import Mathlib.Algebra.Group.Action.Defs
import Mathlib.Algebra.Order.BigOperators.Group.Finset
import EpollHttp.Stop.Threads

/-
That `stop` returns.

A thread whose flag is down ends within the round it is in, and is not left waiting in `epoll_wait`,
because `eventFd` is written to behind the flag and read only by a thread that looks at the flag next.
-/

namespace EpollHttp
namespace ServerStop

section
variable {n : Nat} {s s' : ServerStop} {a : Action} {i j : Nat} {as : List Action}

/-! ## Waking up -/

/-- False was stored into the flag of the loop. -/
def Main.Stored : Main → Nat → Prop
  | .serving, _ => False
  | .storing k, i => i < k
  | .notifying k, i => i ≤ k
  | _, _ => True

/-- The `eventFd` of the loop was written to as well. -/
def Main.Notified : Main → Nat → Prop
  | .serving, _ => False
  | .storing k, i => i < k
  | .notifying k, i => i < k
  | _, _ => True

/-- The loop into whose flag a step stores false. -/
def Action.stores (a : Action) (s : ServerStop) : Option Nat :=
  match a, s.main with
  | .store, .storing i => some i
  | _, _ => none

/-- No flag is assigned false before its thread has begun. -/
def Begun (n : Nat) (s : ServerStop) (a : Action) : Prop :=
  ∀ i ∈ a.stores s, i < n → s.thread i ≠ .created

instance (n : Nat) (s : ServerStop) (a : Action) : Decidable (Begun n s a) :=
  inferInstanceAs (Decidable (∀ i ∈ a.stores s, _))

structure Inv (n : Nat) (s : ServerStop) : Prop where
  stored : ∀ i < n, s.main.Stored i → s.thread i ≠ .created ∧ s.runFlag i = false
  notified : ∀ i < n, s.main.Notified i → s.thread i = .polling → 0 < s.eventFd i

theorem Main.Notified.stored {m : Main} (h : m.Notified i) : m.Stored i := by
  cases m with
  | notifying k => exact Nat.le_of_lt h
  | _ => exact h

theorem Goes.not_created {runFlag : Bool} {t t' : Thread} (h : Goes runFlag t t') :
    t' ≠ .created := by
  cases h with
  | _ => exact Thread.noConfusion

/-- `epoll_wait` is called with the flag up. -/
theorem Goes.polling {runFlag : Bool} {t : Thread} (h : Goes runFlag t .polling) :
    runFlag = true := by
  cases h with
  | enter hflag => exact hflag

/-- A thread took its step. -/
theorem Inv.thread (hinv : Inv n s) {k : Nat} {t : Thread} (ht : t ≠ .created)
    (hpolling : s.main.Stored k → t ≠ .polling) (hmain : s'.main = s.main)
    (hthread : s'.thread = Function.update s.thread k t) (hflag : s'.runFlag = s.runFlag)
    (hcount : ∀ i, i ≠ k → s.eventFd i ≤ s'.eventFd i) : Inv n s' := by
  refine ⟨fun i hi hstored => ?_, fun i hi hnotified => ?_⟩
  · rw [hmain] at hstored
    obtain ⟨hcreated, hfalse⟩ := hinv.stored i hi hstored
    rw [hthread, hflag]
    refine ⟨?_, hfalse⟩
    by_cases hik : i = k
    · rw [hik, Function.update_self]
      exact ht
    · rw [Function.update_of_ne hik]
      exact hcreated
  · rw [hmain] at hnotified
    rw [hthread]
    by_cases hik : i = k
    · rw [hik, Function.update_self]
      exact fun heq => absurd heq (hpolling (hik ▸ hnotified.stored))
    · rw [Function.update_of_ne hik]
      exact fun heq => Nat.lt_of_lt_of_le (hinv.notified i hi hnotified heq) (hcount i hik)

/-- The main thread took its step. -/
theorem Inv.main (hinv : Inv n s) (hbegun : Begun n s a) (h : Advances n s a s') : Inv n s' := by
  cases h with
  | stop hmain =>
    exact ⟨fun i _ hstored => absurd hstored (Nat.not_lt_zero i),
      fun i _ hnotified => absurd hnotified (Nat.not_lt_zero i)⟩
  | store k hmain hk =>
    have hstores : k ∈ Action.stores .store s := by
      unfold Action.stores
      rw [hmain]
      rfl
    refine ⟨fun i hi hstored => ?_, fun i hi hnotified =>
      hinv.notified i hi (by rw [hmain]; exact hnotified)⟩
    show s.thread i ≠ .created ∧ Function.update s.runFlag k false i = false
    by_cases hik : i = k
    · rw [hik, Function.update_self]
      exact ⟨hbegun k hstores hk, rfl⟩
    · rw [Function.update_of_ne hik]
      exact hinv.stored i hi (by rw [hmain]; exact Nat.lt_of_le_of_ne hstored hik)
  | stored k hmain hk =>
    have hlt : ∀ i < n, i < k := fun i hi => Nat.lt_of_lt_of_le hi (Nat.not_lt.mp hk)
    exact ⟨fun i hi _ => hinv.stored i hi (by rw [hmain]; exact hlt i hi),
      fun i hi _ => hinv.notified i hi (by rw [hmain]; exact hlt i hi)⟩
  | notify k hmain =>
    refine ⟨fun i hi hstored => ?_, fun i hi hnotified hpolling => ?_⟩
    · show (s.write k).thread i ≠ .created ∧ (s.write k).runFlag i = false
      rw [write_thread, write_runFlag]
      exact hinv.stored i hi (by rw [hmain]; exact Nat.le_of_lt_succ hstored)
    · have hthread : s.thread i = .polling := (congrFun write_thread i).symm.trans hpolling
      show 0 < (s.write k).eventFd i
      rcases Nat.lt_succ_iff_lt_or_eq.mp hnotified with hlt | rfl
      · exact Nat.lt_of_lt_of_le
          (hinv.notified i hi (by rw [hmain]; exact hlt) hthread) le_write
      · apply write_pos
        rw [hthread]
        exact Thread.noConfusion
  | join k hmain hk hended =>
    exact ⟨fun i hi _ => hinv.stored i hi (by rw [hmain]; trivial),
      fun i hi _ => hinv.notified i hi (by rw [hmain]; trivial)⟩
  | delete k hmain hk =>
    exact ⟨fun i hi _ => hinv.stored i hi (by rw [hmain]; trivial),
      fun i hi _ => hinv.notified i hi (by rw [hmain]; trivial)⟩

theorem step_inv (hinv : Inv n s) (hbegun : Begun n s a) (hstep : step n s a = some s') :
    Inv n s' := by
  cases step_cases hstep with
  | began k hk ht =>
    -- The flag of a thread that begins was not assigned false.
    have hnot : ¬ s.main.Stored k := fun hstored => (hinv.stored k hk hstored).1 ht
    refine ⟨fun i hi hstored => ?_, fun i hi hnotified => ?_⟩
    · have hik : i ≠ k := fun heq => hnot (heq ▸ hstored)
      show Function.update s.thread k .testing i ≠ .created ∧
        Function.update s.runFlag k true i = false
      rw [Function.update_of_ne hik, Function.update_of_ne hik]
      exact hinv.stored i hi hstored
    · have hik : i ≠ k := fun heq => hnot (heq ▸ hnotified.stored)
      show Function.update s.thread k .testing i = .polling → 0 < s.eventFd i
      rw [Function.update_of_ne hik]
      exact hinv.notified i hi hnotified
  | moved a k t hk ht =>
    refine hinv.thread ht.not_created (fun hstored heq => ?_) rfl rfl rfl
      (fun _ _ => Nat.le_refl _)
    subst heq
    have hfalse := (hinv.stored k hk hstored).2
    rw [ht.polling] at hfalse
    cases hfalse
  | read k left count hk ht =>
    exact hinv.thread Thread.noConfusion (fun _ => Thread.noConfusion) rfl rfl rfl
      (fun i hik => Nat.le_of_eq (Function.update_of_ne hik ..).symm)
  | queued k j left hk ht =>
    refine hinv.thread (k := k) (t := .handling left) Thread.noConfusion
      (fun _ => Thread.noConfusion) ?_ ?_ ?_ (fun i _ => ?_)
    · rw [write_main, setThread_main]
    · rw [write_thread, setThread_thread]
    · rw [write_runFlag, setThread_runFlag]
    · exact le_write (s := s.setThread k (.handling left))
  | failed a k hk ht ha =>
    exact hinv.thread Thread.noConfusion (fun _ => Thread.noConfusion) rfl rfl rfl
      (fun _ _ => Nat.le_refl _)
  | main a s' h => exact hinv.main hbegun h

theorem run_inv {runFlag : Nat → Bool}
    (hrun : Run.run (Run.guard (Begun n) (step n)) (start runFlag) as = some s) : Inv n s := by
  refine Run.run_invariant (P := Inv n) (fun s a s' hinv hstep => ?_) ⟨?_, ?_⟩ hrun
  · obtain ⟨hbegun, hstep⟩ := Run.guard_some hstep
    exact step_inv hinv hbegun hstep
  · exact fun _ _ hno => hno.elim
  · exact fun _ _ hno => hno.elim

/-! ## Ending -/

/-- The steps that are left to a thread whose flag is down. -/
def Thread.left : Thread → Nat
  | .created => 0
  | .testing => 2
  | .polling => 3
  | .polled _ => 2
  | .handling left => left + 3
  | .leaving => 1
  | .ended => 0

def Main.left (n : Nat) : Main → Nat
  | .joining k => n - k + 1
  | _ => 0

/-- The steps that are left when every flag is down. -/
def work (n : Nat) (s : ServerStop) : Nat :=
  s.main.left n + ∑ i ∈ Finset.range n, (s.thread i).left

/-- Every flag is down, and every thread is woken up. -/
def Main.Joins : Main → Prop
  | .joining _ => True
  | .stopped => True
  | _ => False

theorem Goes.left {t t' : Thread} (h : Goes false t t') : t'.left < t.left := by
  cases h with
  | enter hno => cases hno
  | goOn nEvents hno => cases hno
  | leave _ => exact Nat.one_lt_two
  | polled nEvents _ => exact Nat.lt_succ_self 2
  | interrupted => exact Nat.lt_succ_self 2
  | broke nEvents _ => exact Nat.one_lt_two
  | handled left => exact Nat.lt_succ_self _
  | round => exact Nat.lt_succ_self 2
  | returned => exact Nat.zero_lt_one

/-- One thread uses up a step. -/
theorem work_thread {k : Nat} {t : Thread} (hk : k < n) (hless : t.left < (s.thread k).left)
    (hmain : s'.main = s.main) (hthread : s'.thread = Function.update s.thread k t) :
    s'.work n < s.work n := by
  unfold work
  rw [hmain, hthread]
  apply Nat.add_lt_add_left
  apply Finset.sum_lt_sum
  · intro i _
    by_cases hik : i = k
    · rw [hik, Function.update_self]
      exact Nat.le_of_lt hless
    · rw [Function.update_of_ne hik]
  · refine ⟨k, Finset.mem_range.mpr hk, ?_⟩
    rw [Function.update_self]
    exact hless

/-- No more entries are handled than `epoll_wait` may return. -/
def Thread.Fits : Thread → Prop
  | .polled nEvents => nEvents ≤ MAX_EPOLL_EVENTS
  | .handling left => left ≤ MAX_EPOLL_EVENTS
  | _ => True

theorem Goes.fits {runFlag : Bool} {t t' : Thread} (h : Goes runFlag t t') (ht : t.Fits) :
    t'.Fits := by
  cases h with
  | polled nEvents hmax => exact hmax
  | goOn nEvents _ => exact ht
  | handled left => exact Nat.le_of_succ_le ht
  | _ => trivial

theorem step_fits (hfits : ∀ i, (s.thread i).Fits) (hstep : step n s a = some s') :
    ∀ i, (s'.thread i).Fits := by
  have hupdate : ∀ {k : Nat} {t : Thread}, t.Fits → ∀ i, (Function.update s.thread k t i).Fits := by
    intro k t ht i
    by_cases hik : i = k
    · rw [hik, Function.update_self]
      exact ht
    · rw [Function.update_of_ne hik]
      exact hfits i
  have hrest : ∀ {k left : Nat}, s.thread k = .handling (left + 1) → (Thread.handling left).Fits := by
    intro k left ht
    have hmax := hfits k
    rw [ht] at hmax
    exact Nat.le_of_succ_le hmax
  cases step_cases hstep with
  | began k hk ht => exact hupdate trivial
  | moved a k t hk ht => exact hupdate (ht.fits (hfits k))
  | read k left count hk ht => exact hupdate (hrest ht)
  | queued k j left hk ht =>
    rw [write_thread]
    exact hupdate (hrest ht)
  | failed a k hk ht ha => exact hupdate trivial
  | main a s' h =>
    cases h with
    | notify k hmain =>
      intro i
      rw [show (s.write k).thread = s.thread from write_thread]
      exact hfits i
    | _ => exact hfits

theorem Thread.Fits.left_le {t : Thread} (h : t.Fits) : t.left ≤ MAX_EPOLL_EVENTS + 3 := by
  cases t with
  | handling left => exact Nat.add_le_add_right h 3
  | _ => exact Nat.le_of_ble_eq_true rfl

theorem work_le (hfits : ∀ i, (s.thread i).Fits) :
    s.work n ≤ n * (MAX_EPOLL_EVENTS + 4) + 1 := by
  have hmain : s.main.left n ≤ n + 1 := by
    unfold Main.left
    split
    · omega
    · omega
  have hthreads : ∑ i ∈ Finset.range n, (s.thread i).left ≤ n * (MAX_EPOLL_EVENTS + 3) := by
    have hsum := Finset.sum_le_card_nsmul (Finset.range n) (fun i => (s.thread i).left)
      (MAX_EPOLL_EVENTS + 3) (fun i _ => (hfits i).left_le)
    rw [Finset.card_range, smul_eq_mul] at hsum
    exact hsum
  unfold work
  rw [Nat.mul_add] at hthreads ⊢
  omega

theorem Thread.MayFail.left {t : Thread} (h : t.MayFail) : Thread.leaving.left < t.left := by
  cases t with
  | polling => exact Nat.lt_of_sub_eq_succ rfl
  | handling left => exact Nat.lt_add_left left (Nat.lt_of_sub_eq_succ rfl)
  | _ => exact h.elim

theorem Main.Joins.all {m : Main} (h : m.Joins) (i : Nat) : m.Stored i ∧ m.Notified i := by
  cases m with
  | joining k => exact ⟨trivial, trivial⟩
  | stopped => exact ⟨trivial, trivial⟩
  | _ => exact h.elim

theorem step_work (hinv : Inv n s) (hjoins : s.main.Joins) (hstep : step n s a = some s') :
    (Inv n s' ∧ s'.main.Joins) ∧ s'.work n < s.work n := by
  have hbegun : Begun n s a := by
    intro i hstores
    unfold Action.stores at hstores
    split at hstores
    · rename_i hmain
      rw [hmain] at hjoins
      exact hjoins.elim
    · cases hstores
  have hinv' := step_inv hinv hbegun hstep
  have hstored : ∀ i < n, s.thread i ≠ .created ∧ s.runFlag i = false := fun i hi =>
    hinv.stored i hi (hjoins.all i).1
  cases step_cases hstep with
  | began k hk ht => exact absurd ht (hstored k hk).1
  | moved a k t hk ht =>
    rw [(hstored k hk).2] at ht
    exact ⟨⟨hinv', hjoins⟩, work_thread hk ht.left rfl rfl⟩
  | read k left count hk ht =>
    refine ⟨⟨hinv', hjoins⟩, work_thread hk (t := .handling left) ?_ rfl rfl⟩
    rw [ht]
    exact Nat.lt_succ_self _
  | queued k j left hk ht =>
    refine ⟨⟨hinv', ?_⟩, work_thread hk (t := .handling left) ?_ ?_ ?_⟩
    · rw [write_main]
      exact hjoins
    · rw [ht]
      exact Nat.lt_succ_self _
    · rw [write_main, setThread_main]
    · rw [write_thread, setThread_thread]
  | failed a k hk ht ha => exact ⟨⟨hinv', hjoins⟩, work_thread hk ht.left rfl rfl⟩
  | main a s' h =>
    cases h with
    | join k hmain hk hended =>
      refine ⟨⟨hinv', trivial⟩, Nat.add_lt_add_right ?_ _⟩
      rw [hmain]
      show n - (k + 1) + 1 < n - k + 1
      omega
    | delete k hmain hk =>
      refine ⟨⟨hinv', trivial⟩, Nat.add_lt_add_right ?_ _⟩
      rw [hmain]
      exact Nat.succ_pos _
    | stop hmain | store k hmain hk | stored k hmain hk | notify k hmain =>
      rw [hmain] at hjoins
      exact hjoins.elim

/-- Some thread can go on, and one in `epoll_wait` need not wait for anything. -/
theorem step_enabled (hinv : Inv n s) (hjoins : s.main.Joins) (hmain : s.main ≠ .stopped) :
    ∃ a s', step n s a = some s' ∧ ∀ i nEvents, a = .poll i nEvents → 0 < s.eventFd i := by
  cases hat : s.main with
  | joining k =>
    by_cases hk : k < n
    · obtain ⟨hcreated, _⟩ := hinv.stored k hk (hjoins.all k).1
      cases ht : s.thread k with
      | created => exact absurd ht hcreated
      | testing => exact ⟨.test k, _, if_pos ⟨hk, ht⟩, fun _ _ => Action.noConfusion⟩
      | polling =>
        refine ⟨.poll k 1, _, if_pos ⟨hk, ht, by decide⟩, fun i nEvents heq => ?_⟩
        obtain ⟨rfl, _⟩ := Action.poll.inj heq
        exact hinv.notified _ hk (hjoins.all _).2 ht
      | polled nEvents =>
        refine ⟨.check k, s.setThread k (if s.runFlag k then .handling nEvents else .leaving), ?_,
          fun _ _ => Action.noConfusion⟩
        simp only [step, ht]
        exact if_pos hk
      | handling left =>
        cases left with
        | zero => exact ⟨.endRound k, _, if_pos ⟨hk, ht⟩, fun _ _ => Action.noConfusion⟩
        | succ left =>
          refine ⟨.handle k, s.setThread k (.handling left), ?_, fun _ _ => Action.noConfusion⟩
          simp only [step, ht]
          exact if_pos hk
      | leaving => exact ⟨.leave k, _, if_pos ⟨hk, ht⟩, fun _ _ => Action.noConfusion⟩
      | ended =>
        refine ⟨.join, { s with main := .joining (k + 1) }, ?_, fun _ _ => Action.noConfusion⟩
        simp only [step, hat, if_pos hk]
        exact if_pos ht
    · refine ⟨.join, { s with main := .stopped }, ?_, fun _ _ => Action.noConfusion⟩
      simp only [step, hat]
      exact if_neg hk
  | stopped => exact absurd hat hmain
  | serving | storing k | notifying k =>
    rw [hat] at hjoins
    exact hjoins.elim

end

/-- When every thread began before its flag was assigned false, `stop` returns: whatever happens, only
so many steps follow, and until the loops are deleted some thread can go on; one that is in
`epoll_wait` finds its `eventFd` readable. -/
theorem run_stops {n : Nat} {runFlag : Nat → Bool} {as : List Action} {s : ServerStop}
    (hrun : Run.run (Run.guard (Begun n) (step n)) (start runFlag) as = some s)
    (hjoins : s.main.Joins) {rest : List Action} {s' : ServerStop}
    (hrest : Run.run (step n) s rest = some s') :
    rest.length ≤ n * (MAX_EPOLL_EVENTS + 4) + 1 ∧
      (s'.main ≠ .stopped → ∃ a s'', step n s' a = some s'' ∧
        ∀ i nEvents, a = .poll i nEvents → 0 < s'.eventFd i) := by
  have hstart : Inv n s ∧ s.main.Joins := ⟨run_inv hrun, hjoins⟩
  have hlength := Run.run_length_le (P := fun s => Inv n s ∧ s.main.Joins)
    (fun s a s' h hstep => step_work h.1 h.2 hstep) hstart hrest
  have hend := Run.run_invariant (P := fun s => Inv n s ∧ s.main.Joins)
    (fun s a s' h hstep => (step_work h.1 h.2 hstep).1) hstart hrest
  have hfits : ∀ i, (s.thread i).Fits :=
    Run.run_invariant (P := fun s => ∀ i, (s.thread i).Fits)
      (fun _ _ _ h hstep => step_fits h hstep) (fun _ => trivial) (Run.run_of_guard hrun)
  exact ⟨Nat.le_trans (Nat.le_of_add_right_le hlength) (work_le hfits),
    step_enabled hend.1 hend.2⟩

/-- Two threads begin, one of them accepts a connection for the other, and the server is stopped. -/
def stoppedTwo : List Action :=
  [.begin 0, .begin 1, .test 0, .poll 0 1, .check 0, .test 1, .enqueue 0 1, .stop, .store, .notify,
    .store, .notify, .store]

theorem run_stops_stoppedTwo : ∃ s s',
    Run.run (Run.guard (Begun 2) (step 2)) (start (fun _ => false)) stoppedTwo = some s ∧
      Run.run (step 2) s [.endRound 0, .test 0, .leave 0, .join] = some s' ∧ s'.main = .joining 1 ∧
      ∃ a s'', step 2 s' a = some s'' ∧ ∀ i nEvents, a = .poll i nEvents → 0 < s'.eventFd i := by
  have hrun : (Run.run (Run.guard (Begun 2) (step 2)) (start (fun _ => false)) stoppedTwo).map
      (fun s => (s.main,
        (Run.run (step 2) s [.endRound 0, .test 0, .leave 0, .join]).map ServerStop.main)) =
        some (.joining 0, some (.joining 1)) := by
    decide
  obtain ⟨s, hs, heq⟩ := Option.map_eq_some_iff.mp hrun
  obtain ⟨hmain, hnext⟩ := Prod.mk.inj heq
  obtain ⟨s', hs', hmain'⟩ := Option.map_eq_some_iff.mp hnext
  have hjoins : s.main.Joins := by
    rw [hmain]
    trivial
  refine ⟨s, s', hs, hs', hmain', (run_stops hs hjoins hs').2 ?_⟩
  rw [hmain']
  decide

end ServerStop
end EpollHttp
