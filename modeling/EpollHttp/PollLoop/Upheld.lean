import EpollHttp.PollLoop.Delivery
import EpollHttp.PollLoop.Fate

/-
What `process` upholds of its own executor holds of every executor in every run.

The condition may speak of the executor's data, its descriptors and the bytes that went through
the objects behind them, and of objects that were closed.  Steps of other executors keep all of
that, so it has to be shown of new executors and of the calls of `process` alone.
-/

namespace EpollHttp

open Program

/-- What is said of the executor `r` of the loop `l`. -/
abbrev Statement := World → Nat → Nat → Prop

/-- New executors meet the statement, and calls that return `ok` restore it. -/
structure Upheld (parameters : ServerParameters) (P : Statement) : Prop where
  idle : ∀ w l r, (w.data l r).Idle → P w l r
  novel : ∀ w l r, Novel l r w → P w l r
  kept : ∀ w w' l r, Booked w → Booked w' → Retained l r w w' → P w l r → P w' l r
  stamped : ∀ w l r curMillis, P w l r → P (w.stamped l r curMillis) l r
  served : ∀ w l r e ans fd events, Orderly w → w.parameters = parameters →
    (w.data l r).pExecutor = some e → e.Serves → 0 < fd → P w l r →
    Ensures (e.process ans l r fd events) w (fun result w1 => result = .ok →
      ¬ ExecutorData.MAX_RETRY_COUNTER < (w1.data l r).retryCounter → P w1 l r)

section
variable {parameters : ServerParameters} {P : Statement} {w w1 w' : World} {l r : Nat}
variable {a : Action} {actions : List Action}

namespace Upheld

theorem change (hP : Upheld parameters P) (h : Change l r w w') (hb : Booked w) (hb' : Booked w')
    (hw : P w l r) : P w' l r := by
  cases h with
  | kept hkept => exact hP.kept w w' l r hb hb' hkept hw
  | gone hidle => exact hP.idle w' l r hidle
  | novel huse hnovel => exact hP.novel w' l r hnovel

theorem ended {result : ProcessResult} (hP : Upheld parameters P) (h : Ended l r result w w')
    (hb : Booked w) (hb' : Booked w')
    (hw : result = .ok → ¬ ExecutorData.MAX_RETRY_COUNTER < (w.data l r).retryCounter → P w l r) :
    P w' l r := by
  cases h with
  | removed hidle => exact hP.idle w' l r hidle
  | stamped curMillis hok huse hretries hkept =>
    exact hP.kept _ w' l r hb.stamped hb' hkept
      (hP.stamped w l r curMillis (hw hok hretries))

theorem fate (hP : Upheld parameters P) (h : Fate a l r w w') (ho : Orderly w)
    (hb' : Booked w') (hparameters : w.parameters = parameters) (hw : P w l r) : P w' l r := by
  have hb := ho.steady.ledger.booked
  cases h with
  | change h => exact hP.change h hb hb' hw
  | served e ans fd events result w1 htarget he hserves hpos hrun h hk =>
    obtain ⟨_, ⟨_, H⟩, _⟩ := ho.handled he hserves hrun
    exact hP.ended h H.did.booked hb'
      (hP.served w l r e ans fd events ho hparameters he hserves hpos hw result w1 hrun)
  | admitted w1 htarget h1 hb1 h =>
    exact hP.ended h hb1 hb' (fun _ _ => hP.change h1 hb hb1 hw)

/-- The statement holds of every executor in every state that is reached. -/
theorem run (hP : Upheld parameters P)
    (hrun : Run.run (Run.guard SparesOpen World.step) { parameters := parameters } actions =
      some w) : Orderly w ∧ w.parameters = parameters ∧ ∀ l r, P w l r := by
  refine Run.run_invariant (P := fun w => Orderly w ∧ w.parameters = parameters ∧
    ∀ l r, P w l r) ?_ ⟨orderly_start parameters, rfl, fun l r => hP.idle _ l r rfl⟩ hrun
  rintro w a w' ⟨ho, hparameters, hw⟩ hstep
  obtain ⟨ho', hfates, hsame⟩ := step_fates ho hstep
  exact ⟨ho', hsame.trans hparameters, fun l r =>
    hP.fate (hfates.each l r) ho ho'.steady.ledger.booked hparameters (hw l r)⟩

end Upheld

/-! ## What a connection was set up for -/

/-- The type of the connections that a class serves. -/
def Executor.connectionType : Executor → Nat
  | .sslRequest => ConnectionType.ssl
  | .sslFile => ConnectionType.ssl
  | .sslProxy => ConnectionType.ssl
  | _ => ConnectionType.clear

/-- The class goes with the type of the connection, and with where the request leads: to the first
proxy whose prefix fits, or to a file when there is none. -/
inductive Terms.Agreed (proxies : List ProxyParameters) (t : Terms) : Prop
  | none (he : t.exec = none)
  | service (e : Executor) (he : t.exec = some e) (hclass : e = .newFd ∨ e = .server ∨ e = .sslServer)
      (hstays : t.removeOnTimeout = false)
  | client (e : Executor) (he : t.exec = some e)
      (hclass : e = .request ∨ e = .sslRequest ∨ e = .file ∨ e = .sslFile ∨ e = .proxySplice ∨
        e = .sslProxy)
      (htype : t.connectionType = e.connectionType)
      (hssl : t.ssl = true ↔ e.connectionType = ConnectionType.ssl)
      (hleaves : t.removeOnTimeout = true)
      (hfile : e = .file ∨ e = .sslFile → RequestExecutor.findProxy proxies t.request = none)
      (hproxy : e = .proxySplice ∨ e = .sslProxy → ∃ proxy,
        RequestExecutor.findProxy proxies t.request = some proxy ∧
          t.connectionType &&& proxy.connectionType ≠ 0 ∧ t.proxy = some proxy)

/-- The terms are agreed on, and the executor is not tried too often. -/
def Disciplined (proxies : List ProxyParameters) : Statement := fun w l r =>
  (w.data l r).terms.Agreed proxies ∧
    (w.data l r).retryCounter ≤ ExecutorData.MAX_RETRY_COUNTER

/-- A class that reads requests hands them to classes of its own type. -/
theorem Executor.successors_connectionType {e : Executor} {successors : Executor × Executor}
    (h : e.successors = some successors) :
    (e = .request ∧ successors = (.file, .proxySplice)) ∨
      (e = .sslRequest ∧ successors = (.sslFile, .sslProxy)) := by
  cases e with
  | request => exact Or.inl ⟨rfl, (Option.some.inj h).symm⟩
  | sslRequest => exact Or.inr ⟨rfl, (Option.some.inj h).symm⟩
  | _ => cases h

theorem Terms.Next.agreed {proxies : List ProxyParameters} {t t' : Terms}
    (h : Terms.Next proxies t t') (ht : t.Agreed proxies) : t'.Agreed proxies := by
  cases h with
  | same => exact ht
  | parsed e successors request proxy he hsuccessors =>
    have hclass := Executor.successors_connectionType hsuccessors
    cases ht with
    | none hnone =>
      rw [he] at hnone
      cases hnone
    | service e1 he1 hservice =>
      obtain rfl := Option.some.inj (he.symm.trans he1)
      rcases hclass with ⟨rfl, _⟩ | ⟨rfl, _⟩
      all_goals
        rcases hservice with h | h | h <;> cases h
    | client e1 he1 hclient htype hssl hleaves =>
      obtain rfl := Option.some.inj (he.symm.trans he1)
      refine .client e he hclient htype hssl hleaves (fun hfile => ?_) (fun hproxy => ?_)
      · rcases hclass with ⟨rfl, _⟩ | ⟨rfl, _⟩
        all_goals
          rcases hfile with h | h <;> cases h
      · rcases hclass with ⟨rfl, _⟩ | ⟨rfl, _⟩
        all_goals
          rcases hproxy with h | h <;> cases h
  | handedOver e successors result e' request proxy he hsuccessors he' hrouted =>
    have hclass := Executor.successors_connectionType hsuccessors
    cases ht with
    | none hnone =>
      rw [he] at hnone
      cases hnone
    | service e1 he1 hservice =>
      obtain rfl := Option.some.inj (he.symm.trans he1)
      rcases hclass with ⟨rfl, _⟩ | ⟨rfl, _⟩
      all_goals
        rcases hservice with h | h | h <;> cases h
    | client e1 he1 hclient htype hssl hleaves =>
      obtain rfl := Option.some.inj (he.symm.trans he1)
      have htype' : e'.connectionType = e.connectionType := by
        rcases hclass with ⟨rfl, rfl⟩ | ⟨rfl, rfl⟩
        all_goals
          rcases he' with ⟨_, rfl⟩ | ⟨_, rfl⟩ <;> rfl
      refine .client e' rfl ?_ (htype.trans htype'.symm) ?_ rfl (fun hfile => ?_) (fun hproxy => ?_)
      · rcases hclass with ⟨rfl, rfl⟩ | ⟨rfl, rfl⟩
        all_goals
          rcases he' with ⟨_, rfl⟩ | ⟨_, rfl⟩ <;> simp
      · rw [htype']
        exact hssl
      · rcases he' with ⟨rfl, rfl⟩ | ⟨rfl, rfl⟩
        · exact hrouted
        · rcases hclass with ⟨rfl, rfl⟩ | ⟨rfl, rfl⟩
          all_goals
            rcases hfile with h | h <;> cases h
      · rcases he' with ⟨rfl, rfl⟩ | ⟨rfl, rfl⟩
        · rcases hclass with ⟨rfl, rfl⟩ | ⟨rfl, rfl⟩
          all_goals
            rcases hproxy with h | h <;> cases h
        · exact hrouted

theorem Novel.agreed (h : Novel l r w) (proxies : List ProxyParameters) :
    (w.data l r).terms.Agreed proxies := by
  cases h with
  | request hbegins hadmits hblank =>
    refine .client .request hbegins.exec (Or.inl rfl) hadmits.connectionType ?_
      hadmits.removeOnTimeout ?_ ?_
    · rw [show (w.data l r).terms.ssl = false from hadmits.ssl]
      decide
    · rintro (h | h) <;> cases h
    · rintro (h | h) <;> cases h
  | sslRequest hbegins hadmits hblank =>
    refine .client .sslRequest hbegins.exec (Or.inr (Or.inl rfl)) hadmits.connectionType ?_
      hadmits.removeOnTimeout ?_ ?_
    · rw [show (w.data l r).terms.ssl = true from hadmits.ssl]
      decide
    · rintro (h | h) <;> cases h
    · rintro (h | h) <;> cases h
  | service e he hbegins hstays => exact .service e hbegins.exec he hstays

theorem Novel.begins (h : Novel l r w) : ∃ e, (w.data l r).Begins e := by
  cases h with
  | request hbegins _ _ => exact ⟨_, hbegins⟩
  | sslRequest hbegins _ _ => exact ⟨_, hbegins⟩
  | service e _ hbegins _ => exact ⟨e, hbegins⟩

theorem upheld_disciplined : Upheld parameters (Disciplined parameters.proxies) := by
  refine ⟨fun w l r hidle => ?_, fun w l r hnovel => ?_, fun w w' l r _ _ hk hw => ?_,
    fun w l r curMillis hw => ?_, fun w l r e ans fd events ho hparameters he hserves _ hw => ?_⟩
  · have hretries : (w.data l r).cleared.retryCounter = 0 := rfl
    rw [hidle] at hretries
    refine ⟨.none hidle.exec, ?_⟩
    rw [hretries]
    exact Nat.zero_le _
  · obtain ⟨e, hbegins⟩ := hnovel.begins
    refine ⟨hnovel.agreed _, ?_⟩
    rw [hbegins.retries]
    exact Nat.zero_le _
  · unfold Disciplined
    rw [hk.undisturbed.data]
    exact hw
  · unfold Disciplined World.stamped
    rw [World.setData_self]
    refine ⟨?_, hw.2⟩
    cases hw.1 with
    | none he => exact .none he
    | service e he hclass hstays => exact .service e he hclass hstays
    | client e he hclass htype hssl hleaves hfile hproxy =>
      exact .client e he hclass htype hssl hleaves hfile hproxy
  · intro result w1 hrun _ hretries
    obtain ⟨t', ⟨h, H⟩, hnext⟩ := ho.handled he hserves hrun
    refine ⟨?_, Nat.not_lt.mp hretries⟩
    rw [H.terms]
    rw [hparameters] at hnext
    exact hnext.agreed hw.1

end

/-- In every state of every run an executor serves the type of connection that it was set up for, it
answers from a file only when no proxy fits the URL and through the first proxy that fits otherwise,
and it was not tried more often than it may be. -/
theorem run_disciplined {parameters : ServerParameters} {actions : List Action} {w : World}
    (hrun : Run.run (Run.guard SparesOpen World.step) { parameters := parameters } actions =
      some w) (l r : Nat) : Disciplined parameters.proxies w l r :=
  (upheld_disciplined.run hrun).2.2 l r

theorem run_disciplined_proxiedClient : ∃ w,
    Run.run (Run.guard SparesOpen World.step) { parameters := proxying } proxiedClient = some w ∧
      (w.data 0 2).pExecutor = some .proxySplice ∧ Disciplined proxying.proxies w 0 2 := by
  have hrun : (Run.run (Run.guard SparesOpen World.step) { parameters := proxying }
      proxiedClient).map (fun w => (w.data 0 2).pExecutor) = some (some .proxySplice) := by
    decide +kernel
  obtain ⟨w, hw, hexec⟩ := Option.map_eq_some_iff.mp hrun
  exact ⟨w, hw, hexec, run_disciplined hw 0 2⟩

end EpollHttp
