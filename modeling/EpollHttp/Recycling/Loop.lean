import EpollHttp.Recycling.Handlers
import EpollHttp.PollLoop.Run

/-
The steps of the loops in twin worlds.

Data is alike where an executor serves a client.  What an executor is set up with is assigned
before it is read, so data may be handed out whatever it held.
-/

namespace EpollHttp

open Program

section
variable {K : Scope} {ans : Answers} {l r : Nat} {curMillis : Int} {pending : List EpollEvent}

/-! ## Handing a connection over -/

theorem enqueueClientFd_coupled (l : Nat) (fd : Int) (execType : ExecutorType) :
    Coupled (Twins K) (Twins K) (enqueueClientFd l fd execType)
      (enqueueClientFd l fd execType) := by
  refine getLoop_coupled (fun x y h => ?_)
  cases h with
  | intro execDatas h =>
    exact .ite .pure (.bind (modifyLoop_same (fun _ _ => rfl) (fun _ => rfl)) (fun _ => .pure))

theorem serverCreateRequestExecutor_coupled (fd : Int) (execType : ExecutorType) :
    Coupled (Twins K) (Twins K) (serverCreateRequestExecutor ans fd execType)
      (serverCreateRequestExecutor ans fd execType) := by
  refine .read (fun w w' h => ?_)
  dsimp only
  rw [h.parameters]
  exact (enqueueClientFd_coupled _ fd execType).bind (fun _ =>
    .ite (((framed_twins K).close fd).bind (fun _ => .pure)) .pure)

theorem serverUp_coupled : Coupled (Twins K) (Twins K) (serverUp ans l r) (serverUp ans l r) :=
  .bind (modifyData_same (fun _ _ _ => rfl) (fun _ => ⟨rfl, rfl, rfl⟩)) (fun _ =>
    ((framed_twins K).socketListen ans).bind (fun _ =>
      .bind (modifyData_same (fun _ _ _ => rfl) (fun _ => ⟨rfl, rfl, rfl⟩)) (fun _ =>
        .ite .pure ((addPollFd_coupled ans l r _ _).bind (fun _ => .ite .pure .pure)))))

/-- Data is set up for a class and `up` is called.  What follows does the same in twin worlds,
whether the data is compared or not. -/
theorem setUp_coupled (e : Executor) {f : ExecutorData → ExecutorData} {α : Type}
    (hgraft : ∀ d buffer request, f { d with buffer := buffer, request := request } =
      { f d with buffer := buffer, request := request })
    (hself : ∀ d, (f d).buffer = d.buffer ∧ (f d).request = d.request ∧
      (f d).pExecutor = some e) {next : Int → Prog α}
    (hnext : ∀ K : Scope, K.Clears → ∀ result,
      Coupled (Twins K) (Twins K) (next result) (next result)) :
    Coupled (Twins Scope.serving) (Twins Scope.serving)
      (do modifyData l r f; let result ← upCreated e ans l r; next result)
      (do modifyData l r f; let result ← upCreated e ans l r; next result) := by
  -- Data of a client is not compared until `up` has set it up.
  have hclient : ∀ up,
      Coupled (Twins (Scope.serving.minus l r)) (Twins (Scope.serving.plus l r)) up up →
      Coupled (Twins Scope.serving) (Twins Scope.serving)
        (do modifyData l r f; let result ← up; next result)
        (do modifyData l r f; let result ← up; next result) := by
    intro up hup
    have hassign : Coupled (Twins (Scope.serving.minus l r)) (Twins (Scope.serving.minus l r))
        (modifyData l r f) (modifyData l r f) := by
      refine modifyData_coupled (fun d d' h => ?_)
      cases h with
      | intro buffer request h =>
        rw [hgraft d buffer request]
        exact .intro buffer request (fun hk => absurd ⟨rfl, rfl⟩ hk.1)
    have hall : Coupled (Twins (Scope.serving.minus l r)) (Twins Scope.serving)
        (do modifyData l r f; let result ← up; next result)
        (do modifyData l r f; let result ← up; next result) :=
      hassign.bind (fun _ => hup.bind (fun result =>
        (hnext _ (Scope.serving_clears.plus l r) result).post
          (fun _ _ h => h.mono (fun _ _ => Or.inr))))
    exact hall.pre (fun _ _ h => h.mono (fun _ _ hminus => hminus.2))
  have hserver : ¬ e.Serves → ∀ up, Coupled (Twins Scope.serving) (Twins Scope.serving) up up →
      Coupled (Twins Scope.serving) (Twins Scope.serving)
        (do modifyData l r f; let result ← up; next result)
        (do modifyData l r f; let result ← up; next result) := by
    intro hserves up hup
    refine .bind (modifyData_coupled (fun d d' h => ?_)) (fun _ => hup.bind (fun result =>
      hnext _ Scope.serving_clears result))
    cases h with
    | intro buffer request h =>
      rw [hgraft d buffer request, (hself d).2.2]
      refine .intro buffer request (fun hk => ?_)
      obtain ⟨e', he, hserves'⟩ := hk
      exact absurd (Option.some.inj he ▸ hserves') hserves
  cases e with
  | request => exact hclient _ RequestExecutor.up_coupled
  | sslRequest => exact hclient _ SslRequestExecutor.up_coupled
  | server => exact hserver id _ serverUp_coupled
  | sslServer => exact hserver id _ serverUp_coupled
  | _ => exact hclient _ .fail

theorem createRequestExecutorInternal_coupled (fd : Int) (execType : ExecutorType) :
    Coupled (Twins Scope.serving) (Twins Scope.serving)
      (createRequestExecutorInternal ans l fd execType)
      (createRequestExecutorInternal ans l fd execType) := by
  refine (createExecutorData_coupled ans l).bind (fun r => ?_)
  refine setUp_coupled (PollLoop.getExecutor execType) ?_ ?_ ?_
  · exact fun _ _ _ => rfl
  · exact fun _ => ⟨rfl, rfl, rfl⟩
  · exact fun K hK result => .ite ((removeExecutorData_coupled hK).bind (fun _ => .pure)) .pure

theorem listenPort_coupled (execType : ExecutorType) :
    Coupled (Twins Scope.serving) (Twins Scope.serving) (listenPort ans l execType)
      (listenPort ans l execType) := by
  refine (createExecutorData_coupled ans l).bind (fun r => ?_)
  refine setUp_coupled (PollLoop.getExecutor execType) ?_ ?_ ?_
  · exact fun _ _ _ => rfl
  · exact fun _ => ⟨rfl, rfl, rfl⟩
  · exact fun K hK result => when_coupled (fun _ => removeExecutorData_coupled hK) (fun _ _ h => h)

theorem createRequestExecutor_coupled (fd : Int) (execType : ExecutorType) :
    Coupled (Twins Scope.serving) (Twins Scope.serving)
      (createRequestExecutor ans l fd execType) (createRequestExecutor ans l fd execType) := by
  refine .read (fun w w' h => ?_)
  rw [h.parameters]
  exact .ite (createRequestExecutorInternal_coupled fd execType)
    (serverCreateRequestExecutor_coupled fd execType)

theorem serverProcess_coupled (execType : ExecutorType) (fd : Int) :
    Coupled (Twins Scope.serving) (Twins Scope.serving) (serverProcess execType ans l r fd)
      (serverProcess execType ans l r fd) :=
  (framed_twins _).getData (fun _ _ _ => .ite .pure (((framed_twins _).newDescriptor _ _).bind
    (fun _ => .ite .pure ((createRequestExecutor_coupled _ execType).bind (fun _ => .pure)))))

/-! ## Executors -/

/-- An executor that serves a client works on data that is compared. -/
theorem Executor.process_coupled {e : Executor} (he : e.Serves) (hk : ∀ exec, K l r exec) (fd : Int)
    (events : Nat) :
    Coupled (Twins K) (Twins K) (e.process ans l r fd events) (e.process ans l r fd events) := by
  cases e with
  | request => exact RequestExecutor.process_coupled hk fd events
  | sslRequest => exact SslRequestExecutor.process_coupled hk fd events
  | file => exact FileExecutor.process_coupled hk .file fd events
  | sslFile => exact SslFileExecutor.process_coupled hk fd events
  | proxySplice => exact ProxyExecutorSplice.process_coupled hk fd events
  | proxyReadWrite => exact ProxyExecutorReadWrite.process_coupled hk .proxyReadWrite fd events
  | sslProxy => exact ProxyExecutorReadWrite.process_coupled hk .sslProxy fd events
  | _ => exact he.elim

/-! ## Beginning and end -/

theorem setPhase_coupled (phase : Phase) :
    Coupled (Twins K) (Twins K) (setPhase l phase) (setPhase l phase) :=
  modifyLoop_same (fun _ _ => rfl) (fun _ => rfl)

theorem downAll_coupled (hK : K.Clears) (rs : List Nat) :
    Coupled (Twins K) (Twins K) (downAll l rs) (downAll l rs) := by
  induction rs with
  | nil => exact .pure
  | cons r rest ih => exact (down_coupled hK).bind (fun _ => ih)

theorem destroy_coupled (hK : K.Clears) :
    Coupled (Twins K) (Twins K) (destroy l) (destroy l) := by
  refine getLoop_coupled (fun x y h => ?_)
  cases h with
  | intro execDatas h =>
    dsimp only
    rw [h.allItems]
    refine (downAll_coupled hK _).bind (fun _ => (when_coupled (fun _ =>
      ((framed_twins K).close _).bind (fun _ => (framed_twins K).modifyKernel _))
        (fun _ _ h => h)).bind (fun _ => modifyLoop_coupled (fun x y h => ?_)))
    cases h with
    | intro execDatas h => exact .intro _ h.destroy

theorem createEventFd_coupled :
    Coupled (Twins Scope.serving) (Twins Scope.serving) (createEventFd ans l)
      (createEventFd ans l) := by
  refine ((framed_twins _).newDescriptor _ _).bind (fun eventFd =>
    .bind (modifyLoop_same (fun _ _ => rfl) (fun _ => rfl)) (fun _ => .ite .pure
      ((createExecutorData_coupled ans l).bind (fun r => .bind (modifyData_coupled
        (fun d d' h => ?_)) (fun _ => (addPollFd_coupled ans l r _ _).bind (fun _ => .ite
          ((removeExecutorData_coupled Scope.serving_clears).bind (fun _ => .pure))
          (.bind (modifyData_same (fun _ _ _ => rfl) (fun _ => ⟨rfl, rfl, rfl⟩))
            (fun _ => .pure))))))))
  cases h with
  | intro buffer request h =>
    refine .intro buffer request (fun hk => ?_)
    obtain ⟨e, he, hserves⟩ := hk
    obtain rfl : Executor.newFd = e := Option.some.inj he
    exact absurd hserves id

theorem init_coupled :
    Coupled (Twins Scope.serving) (Twins Scope.serving) (init ans l) (init ans l) := by
  refine .read (fun w w' h => ?_)
  rw [h.parameters]
  refine .bind (modifyLoop_same (fun _ _ => rfl) (fun _ => rfl)) (fun _ =>
    ((framed_twins _).newDescriptor _ _).bind (fun _ =>
      .bind (modifyLoop_same (fun _ _ => rfl) (fun _ => rfl)) (fun _ =>
        .ite (destroy_coupled Scope.serving_clears) (createEventFd_coupled.bind (fun _ =>
          .ite (destroy_coupled Scope.serving_clears) (setPhase_coupled _))))))

/-! ## The loop -/

theorem removeAll_coupled (hK : K.Clears) (rs : List Nat) :
    Coupled (Twins K) (Twins K) (removeAll l rs) (removeAll l rs) := by
  induction rs with
  | nil => exact .pure
  | cons r rest ih => exact (removeExecutorData_coupled hK).bind (fun _ => ih)

theorem finishProcess_coupled (hK : K.Clears) (result : ProcessResult) :
    Coupled (Twins K) (Twins K) (finishProcess l r curMillis pending result)
      (finishProcess l r curMillis pending result) := by
  have hremove : Coupled (Twins K) (Twins K)
      (do removeExecutorData l r; setPhase l (.draining curMillis pending))
      (do removeExecutorData l r; setPhase l (.draining curMillis pending)) :=
    (removeExecutorData_coupled hK).bind (fun _ => setPhase_coupled _)
  cases result with
  | ok =>
    exact (framed_twins K).getData (fun _ _ _ => .ite hremove
      (.bind (modifyData_same (fun _ _ _ => rfl) (fun _ => ⟨rfl, rfl, rfl⟩)) (fun _ =>
        setPhase_coupled _)))
  | removeExecutorOk => exact hremove
  | removeExecutorError => exact hremove
  | shutdown => exact destroy_coupled hK

theorem startCheckNewFd_coupled (hK : K.Clears) :
    Coupled (Twins K) (Twins K) (startCheckNewFd ans l r curMillis pending)
      (startCheckNewFd ans l r curMillis pending) :=
  .ite (setPhase_coupled _) (destroy_coupled hK)

theorem Twins.delivery {w w' : World} (h : Twins K w w') (l : Nat) (event : EpollEvent) :
    w'.delivery l event = w.delivery l event := by
  unfold World.delivery
  rw [h.pollData]
  cases hexec : (w.pollData l event.ptr).execData with
  | none => simp only [hexec]
  | some r =>
    have hdata := h.data l r
    simp only [hexec]
    generalize w'.data l r = d at hdata
    cases hdata with
    | intro buffer request _ => rfl

theorem Twins.exec {w w' : World} (h : Twins K w w') (l r : Nat) :
    (w'.data l r).pExecutor = (w.data l r).pExecutor := by
  have hdata := h.data l r
  generalize w'.data l r = d at hdata
  cases hdata with
  | intro buffer request _ => rfl

/-- The data of the executor that is called is compared whatever becomes of its class. -/
theorem drain_coupled (event : EpollEvent) :
    Coupled (Twins Scope.serving) (Twins Scope.serving) (drain ans l curMillis event pending)
      (drain ans l curMillis event pending) := by
  have hK := Scope.serving_clears
  refine .readHere (fun t t' h => ?_)
  have hhere : ∀ w w', w = t ∧ w' = t' → Twins Scope.serving w w' := by
    rintro w w' ⟨rfl, rfl⟩
    exact h
  rw [h.delivery]
  cases t.delivery l event with
  | skipped => exact (setPhase_coupled _).pre hhere
  | removed r =>
    exact ((removeExecutorData_coupled hK).bind (fun _ => setPhase_coupled _)).pre hhere
  | processed r fd =>
    dsimp only
    rw [h.exec]
    cases hexec : (t.data l r).pExecutor with
    | none => exact .fail
    | some e =>
      have hclient : e.Serves → Coupled (fun w w' => w = t ∧ w' = t') (Twins Scope.serving)
          (do let result ← e.process ans l r fd event.events
              finishProcess l r curMillis pending result)
          (do let result ← e.process ans l r fd event.events
              finishProcess l r curMillis pending result) := by
        intro he
        have hrun : Coupled (Twins (Scope.serving.plus l r)) (Twins Scope.serving)
            (do let result ← e.process ans l r fd event.events
                finishProcess l r curMillis pending result)
            (do let result ← e.process ans l r fd event.events
                finishProcess l r curMillis pending result) :=
          (Executor.process_coupled he (Scope.plus_self _ l r) fd event.events).bind (fun result =>
            (finishProcess_coupled (hK.plus l r) result).post
              (fun _ _ h => h.mono (fun _ _ => Or.inr)))
        refine hrun.pre ?_
        rintro w w' ⟨rfl, rfl⟩
        exact h.plus ⟨e, hexec, he⟩
      cases e with
      | newFd => exact (startCheckNewFd_coupled hK).pre hhere
      | server =>
        exact ((serverProcess_coupled .request fd).bind (fun result =>
          finishProcess_coupled hK result)).pre hhere
      | sslServer =>
        exact ((serverProcess_coupled .requestSsl fd).bind (fun result =>
          finishProcess_coupled hK result)).pre hhere
      | _ => exact hclient trivial

theorem checkNewFd_coupled :
    Coupled (Twins Scope.serving) (Twins Scope.serving) (checkNewFd ans l r curMillis pending)
      (checkNewFd ans l r curMillis pending) := by
  refine getLoop_coupled (fun x y h => ?_)
  cases h with
  | intro execDatas h =>
    dsimp only
    cases x.newFdsQueue with
    | nil => exact finishProcess_coupled Scope.serving_clears .ok
    | cons fdData rest =>
      exact .bind (modifyLoop_same (fun _ _ => rfl) (fun _ => rfl)) (fun _ =>
        (createRequestExecutorInternal_coupled _ _).bind (fun _ =>
          when_coupled (fun _ => setPhase_coupled _) (fun _ _ h => h)))

theorem Twins.timedOut {w w' : World} (h : Twins K w w') (l r : Nat) (timeout curMillis : Int) :
    TimedOut (w'.data l r) timeout curMillis ↔ TimedOut (w.data l r) timeout curMillis := by
  have hdata := h.data l r
  generalize w'.data l r = d at hdata
  cases hdata with
  | intro buffer request _ => exact Iff.rfl

theorem checkTimeout_coupled (hK : K.Clears) :
    Coupled (Twins K) (Twins K) (checkTimeout l curMillis) (checkTimeout l curMillis) := by
  refine .read (fun w w' h => ?_)
  have hloop := h.loops l
  have htimedOut : ∀ used : List Nat,
      used.filter (fun r => TimedOut (w'.data l r) w.parameters.executorTimeoutMillis curMillis) =
        used.filter (fun r =>
          TimedOut (w.data l r) w.parameters.executorTimeoutMillis curMillis) := by
    intro used
    refine List.filter_congr (fun r _ => ?_)
    exact decide_eq_decide.mpr (h.timedOut l r _ _)
  rw [h.parameters]
  dsimp only
  generalize w'.loops l = y at hloop
  cases hloop with
  | intro execDatas hstorage =>
    dsimp only
    rw [hstorage.enumerate, hstorage.blocks]
    cases (w.loops l).execDatas.enumerate (blockSize * (w.loops l).execDatas.blocks.length) with
    | none => exact .fail
    | some used =>
      dsimp only
      rw [htimedOut]
      exact (removeAll_coupled hK _).bind (fun _ =>
        modifyLoop_same (fun _ _ => rfl) (fun _ => rfl))

theorem endRound_coupled (hK : K.Clears) :
    Coupled (Twins K) (Twins K) (endRound l curMillis) (endRound l curMillis) := by
  refine .read (fun w w' h => ?_)
  have hloop := h.loops l
  rw [h.parameters]
  generalize w'.loops l = y at hloop
  cases hloop with
  | intro execDatas _ =>
    exact .ite ((checkTimeout_coupled hK).bind (fun _ => setPhase_coupled _)) (setPhase_coupled _)

theorem continueLoop_coupled :
    Coupled (Twins Scope.serving) (Twins Scope.serving) (continueLoop ans l)
      (continueLoop ans l) := by
  refine getLoop_coupled (fun x y h => ?_)
  cases h with
  | intro execDatas h =>
    dsimp only
    cases x.phase with
    | draining curMillis pending =>
      cases pending with
      | nil => exact endRound_coupled Scope.serving_clears
      | cons event pending => exact drain_coupled event
    | checkingNewFd r curMillis pending => exact checkNewFd_coupled
    | closingAgain fd next =>
      exact ((framed_twins _).close fd).bind (fun _ => setPhase_coupled _)
    | _ => exact .fail

theorem Twins.batch {w w' : World} (h : Twins K w w') (l : Nat) (ready : List (Int × Nat)) :
    w'.batch l ready = w.batch l ready := by
  have hreport : ∀ fd events, w'.report l fd events = w.report l fd events := by
    intro fd events
    have hloop := h.loops l
    unfold World.report
    rw [h.kernel, h.pollData]
    generalize w'.loops l = y at hloop
    cases hloop with
    | intro execDatas _ => rfl
  unfold World.batch
  rw [funext (fun x : Int × Nat => hreport x.1 x.2)]

theorem waitForEvents_coupled (ready : List (Int × Nat)) :
    Coupled (Twins K) (Twins K) (waitForEvents l ready curMillis)
      (waitForEvents l ready curMillis) := by
  refine .read (fun w w' h => ?_)
  rw [h.batch]
  cases w.batch l ready with
  | none => exact .fail
  | some pending => exact setPhase_coupled _

/-! ## Steps -/

/-- A loop that waits does the same in both worlds. -/
theorem waiting_coupled {m : Prog PUnit} (hm : Coupled (Twins K) (Twins K) m m) :
    Coupled (Twins K) (Twins K)
      (do let loop ← getLoop l
          match loop.phase with
          | .waiting => m
          | _ => fail)
      (do let loop ← getLoop l
          match loop.phase with
          | .waiting => m
          | _ => fail) := by
  refine getLoop_coupled (fun x y h => ?_)
  cases h with
  | intro execDatas h =>
    dsimp only
    cases x.phase with
    | waiting => exact hm
    | _ => exact .fail

theorem Action.perform_coupled (a : Action) :
    Coupled (Twins Scope.serving) (Twins Scope.serving) a.perform a.perform := by
  cases a with
  | init l ans =>
    refine .read (fun w w' h => ?_)
    have hloop := h.loops l
    rw [h.parameters]
    generalize w'.loops l = y at hloop
    cases hloop with
    | intro execDatas _ =>
      dsimp only
      cases (w.loops l).phase with
      | created => exact .ite init_coupled .fail
      | _ => exact .fail
  | listenPort l execType ans => exact waiting_coupled (listenPort_coupled execType)
  | epollWait l ready curMillis => exact waiting_coupled (waitForEvents_coupled ready)
  | stop l => exact waiting_coupled (destroy_coupled Scope.serving_clears)
  | «continue» l ans => exact continueLoop_coupled

end

end EpollHttp
