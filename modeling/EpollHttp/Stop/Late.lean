import EpollHttp.Stop.Ending

/-
A thread that begins late.

`run` stores true into the flag.  When that comes behind the false of `stop`, the flag stays up.
-/

namespace EpollHttp
namespace ServerStop

section
variable {n : Nat} {s s' : ServerStop} {a : Action} {i : Nat}

/-- No error ends the thread. -/
def Unfailing (i : Nat) (s : ServerStop) (a : Action) : Prop :=
  a ≠ .pollError i ∧ a ≠ .shutdown i ∧ (a = .eventfdRead i → 0 < s.eventFd i)

instance (i : Nat) (s : ServerStop) (a : Action) : Decidable (Unfailing i s a) :=
  inferInstanceAs (Decidable (_ ∧ _))

/-- In front of `destroy`. -/
def Thread.Runs : Thread → Prop
  | .leaving => False
  | .ended => False
  | _ => True

/-- False was stored for the last time, and the thread stores true, or did. -/
structure Late (i : Nat) (s : ServerStop) : Prop where
  stored : s.main.Stored i
  unjoined : ¬ s.main.Joined i
  runs : (s.thread i).Runs
  up : s.thread i = .created ∨ s.runFlag i = true

theorem Late.running (h : Late i s) : s.thread i ≠ .ended := by
  intro hended
  have hruns := h.runs
  rw [hended] at hruns
  exact hruns

theorem Goes.runs {t t' : Thread} (h : Goes true t t') (ht : t.Runs) : t'.Runs := by
  cases h with
  | leave hno => cases hno
  | broke nEvents hno => cases hno
  | returned => exact ht
  | _ => trivial

theorem Goes.begun {runFlag : Bool} {t t' : Thread} (h : Goes runFlag t t') : t ≠ .created := by
  rintro rfl
  cases h

/-- A thread took its step and did not end. -/
theorem Late.thread (h : Late i s) {k : Nat} {t : Thread} (hcreated : s.thread k ≠ .created)
    (ht : k = i → t.Runs) (hmain : s'.main = s.main)
    (hthread : s'.thread = Function.update s.thread k t) (hflag : s'.runFlag = s.runFlag) :
    Late i s' := by
  refine ⟨by rw [hmain]; exact h.stored, by rw [hmain]; exact h.unjoined, ?_, ?_⟩
  · rw [hthread]
    by_cases hik : i = k
    · subst hik
      rw [Function.update_self]
      exact ht rfl
    · rw [Function.update_of_ne hik]
      exact h.runs
  · rw [hthread, hflag]
    by_cases hik : i = k
    · subst hik
      exact Or.inr (h.up.resolve_left hcreated)
    · rw [Function.update_of_ne hik]
      exact h.up

theorem Late.main (h : Late i s) (hi : i < n) (hstep : Advances n s a s') : Late i s' := by
  have hstored := h.stored
  have hjoined := h.unjoined
  cases hstep with
  | stop hmain =>
    rw [hmain] at hstored
    exact hstored.elim
  | store k hmain hk =>
    rw [hmain] at hstored
    have hlt : i < k := hstored
    refine ⟨Nat.le_of_lt hlt, not_false, h.runs, ?_⟩
    show s.thread i = .created ∨ Function.update s.runFlag k false i = true
    rw [Function.update_of_ne (Nat.ne_of_lt hlt)]
    exact h.up
  | stored k hmain hk => exact ⟨trivial, Nat.not_lt_zero i, h.runs, h.up⟩
  | notify k hmain =>
    rw [hmain] at hstored
    refine ⟨Nat.lt_succ_of_le hstored, not_false, ?_, ?_⟩
    · show ((s.write k).thread i).Runs
      rw [write_thread]
      exact h.runs
    · show (s.write k).thread i = .created ∨ (s.write k).runFlag i = true
      rw [write_thread, write_runFlag]
      exact h.up
  | join k hmain hk hended =>
    refine ⟨trivial, fun hlt => ?_, h.runs, h.up⟩
    rcases Nat.lt_succ_iff_lt_or_eq.mp hlt with hless | rfl
    · rw [hmain] at hjoined
      exact hjoined hless
    · exact h.running hended
  | delete k hmain hk =>
    rw [hmain] at hjoined
    exact absurd (Nat.lt_of_lt_of_le hi (Nat.not_lt.mp hk)) hjoined

theorem step_late (h : Late i s) (hi : i < n) (hok : Unfailing i s a)
    (hstep : step n s a = some s') : Late i s' := by
  cases step_cases hstep with
  | began k hk ht =>
    refine ⟨h.stored, h.unjoined, ?_, ?_⟩
    · show (Function.update s.thread k .testing i).Runs
      by_cases hik : i = k
      · subst hik
        rw [Function.update_self]
        trivial
      · rw [Function.update_of_ne hik]
        exact h.runs
    · show Function.update s.thread k .testing i = .created ∨
        Function.update s.runFlag k true i = true
      by_cases hik : i = k
      · subst hik
        rw [Function.update_self, Function.update_self]
        exact Or.inr rfl
      · rw [Function.update_of_ne hik, Function.update_of_ne hik]
        exact h.up
  | moved a k t hk ht =>
    refine h.thread ht.begun (fun heq => ?_) rfl rfl rfl
    subst heq
    rw [h.up.resolve_left ht.begun] at ht
    exact ht.runs h.runs
  | read k left count hk ht =>
    refine h.thread (t := .handling left) ?_ (fun _ => trivial) rfl rfl rfl
    rw [ht]
    exact Thread.noConfusion
  | queued k j left hk ht =>
    refine h.thread (k := k) (t := .handling left) ?_ (fun _ => trivial) ?_ ?_ ?_
    · rw [ht]
      exact Thread.noConfusion
    · rw [write_main, setThread_main]
    · rw [write_thread, setThread_thread]
    · rw [write_runFlag, setThread_runFlag]
  | failed a k hk ht ha =>
    refine h.thread (k := k) (t := .leaving) (fun hcreated => ?_) (fun heq => ?_) rfl rfl rfl
    · rw [hcreated] at ht
      exact ht
    · subst heq
      rcases ha with rfl | rfl | ⟨rfl, hzero⟩
      · exact absurd rfl hok.1
      · exact absurd rfl hok.2.1
      · exact absurd hzero (Nat.ne_of_gt (hok.2.2 rfl))
  | main a s' hmain => exact h.main hi hmain

end

/-- A thread that begins after false was stored into its flag never ends unless a call fails, and
`stop` never returns. -/
theorem run_late {n : Nat} {runFlag : Nat → Bool} {as : List Action} {s : ServerStop}
    (hrun : Run.run (step n) (start runFlag) as = some s) {i : Nat} (hi : i < n)
    (hcreated : s.thread i = .created) (hstored : s.main.Stored i) {rest : List Action}
    {s' : ServerStop} (hrest : Run.run (Run.guard (Unfailing i) (step n)) s rest = some s') :
    s'.thread i ≠ .ended ∧ s'.main ≠ .stopped := by
  have hjoined : ¬ s.main.Joined i := by
    intro hjoined
    have hended := run_joined hrun i hi hjoined
    rw [hcreated] at hended
    cases hended
  have hlate : Late i s' := by
    refine Run.run_invariant (P := Late i) (fun s a s' h hstep => ?_)
      ⟨hstored, hjoined, by rw [hcreated]; trivial, Or.inl hcreated⟩ hrest
    obtain ⟨hok, hstep⟩ := Run.guard_some hstep
    exact step_late h hi hok hstep
  refine ⟨hlate.running, fun hstopped => hlate.unjoined ?_⟩
  rw [hstopped]
  trivial

theorem run_late_one : ∃ s s',
    Run.run (step 1) (start (fun _ => false)) [.stop, .store] = some s ∧
      Run.run (Run.guard (Unfailing 0) (step 1)) s
        [.notify, .begin 0, .store, .test 0, .poll 0 0, .check 0, .endRound 0] = some s' ∧
      s'.thread 0 ≠ .ended ∧ s'.main ≠ .stopped := by
  have hrun : (Run.run (step 1) (start (fun _ => false)) [.stop, .store]).map (fun s =>
      (s.thread 0, s.main, (Run.run (Run.guard (Unfailing 0) (step 1)) s
        [.notify, .begin 0, .store, .test 0, .poll 0 0, .check 0, .endRound 0]).isSome)) =
        some (.created, .notifying 0, true) := by
    decide
  obtain ⟨s, hs, heq⟩ := Option.map_eq_some_iff.mp hrun
  obtain ⟨hcreated, heq⟩ := Prod.mk.inj heq
  obtain ⟨hmain, hsome⟩ := Prod.mk.inj heq
  obtain ⟨s', hs'⟩ := Option.isSome_iff_exists.mp hsome
  have hstored : s.main.Stored 0 := by
    rw [hmain]
    exact Nat.le_refl 0
  exact ⟨s, s', hs, hs', run_late hs Nat.zero_lt_one hcreated hstored hs'⟩

end ServerStop
end EpollHttp
