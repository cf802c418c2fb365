import EpollHttp.Executors.FootprintSteps

/-
How an executor comes into being, and what its calls leave behind.

New data is handed out, it adopts a descriptor, and `up` starts it; when `up` fails the data is
taken back together with the descriptor.
-/

namespace EpollHttp

open Program

/-- New data was set up for an executor of the class `e` and holds `fd` as `fd0`. -/
structure Adopted (w : World) (l r : Nat) (fd : Int) (e : Executor) (w' : World) : Prop where
  world : ∃ w1 millis, HandedOut w l r w1 ∧ w' = w1.setData l r { w1.data l r with
    createTime := millis, lastProcessTime := millis, pExecutor := some e, fd0 := fd }

section
variable {ans : Answers} {w w' : World} {l r : Nat} {fd : Int} {e : Executor}

theorem HandedOut.fdAt (hb : Booked w) (hh : HandedOut w l r w') (l' r' : Nat) (place : Place) :
    w'.fdAt l' r' place = w.fdAt l' r' place := by
  unfold World.fdAt
  rcases hh.data hb l' r' with heq | ⟨hidle, heq⟩
  · rw [heq]
  · rw [heq]
    exact (hb.idle_holding hidle).1 place

theorem HandedOut.kernel (hh : HandedOut w l r w') : w'.kernel = w.kernel := by
  obtain ⟨_, _, rfl⟩ := hh
  rfl

/-- The executor starts with the adopted descriptor and nothing else. -/
theorem Adopted.did (hb : Booked w) (ha : Adopted w l r fd e w')
    (hfd : fd = -1 ∨ (w.kernel.openId? fd ≠ none ∧ w.Unheld fd)) :
    Did l r (some e) w' w' ∧ (w'.data l r).Alone ∧ w'.pollDataAt l r .fd0 = none ∧
      w'.fdAt l r .fd0 = fd := by
  obtain ⟨w1, millis, hh, rfl⟩ := ha
  have h1 := hb.handedOut hh
  have huse1 : w1.InUse l r := ((hh.spec hb).2.1 r).mpr (Or.inl rfl)
  have hidle := (hb.loops l).idle r (hh.spec hb).1
  have hempty : ∀ place, w1.fdAt l r place = -1 ∧ w1.pollDataAt l r place = none := by
    intro place
    have hfd1 := hh.fdAt hb l r place
    refine ⟨hfd1.trans (hidle place).1, ?_⟩
    unfold World.pollDataAt
    rcases (hh.spec hb).2.2 r with heq | ⟨_, heq⟩
    · rw [heq]
      exact (hidle place).2
    · rw [heq]
      cases place <;> rfl
  have hun : fd = -1 ∨ (w1.kernel.openId? fd ≠ none ∧ w1.Unheld fd) := by
    rcases hfd with hneg | ⟨hopen, hun⟩
    · exact Or.inl hneg
    · refine Or.inr ⟨by rw [hh.kernel]; exact hopen, fun l' r' place => ?_⟩
      rw [hh.fdAt hb]
      exact hun l' r' place
  have h2 := h1.setData (l := l) (r := r) (d := { w1.data l r with
    createTime := millis, lastProcessTime := millis, pExecutor := some e })
    ⟨fun _ => rfl, fun _ => rfl⟩ (fun _ => ⟨(hempty .fd1).1, (hempty .fd1).2⟩)
  have huse2 := (inUse_setData (l := l) (r := r) (d := { w1.data l r with
    createTime := millis, lastProcessTime := millis, pExecutor := some e })
    (fun l => (h1.loops l).execs) l r).mpr huse1
  have h3 := h2.replace (l := l) (r := r) .fd0 fd (Or.inl huse2) ?_ ?_
    (fun _ hplace => nomatch hplace)
  · rw [World.setData_self, World.setData_setData] at h3
    refine ⟨⟨.refl, h3, (inUse_setData (fun l => (h1.loops l).execs) l r).mpr huse1, ?_⟩, ?_, ?_,
      ?_⟩
    · rw [World.setData_self]
    · rw [World.setData_self]
      exact ⟨(hempty .fd1).1, (hempty .fd1).2⟩
    · rw [World.setData_pollDataAt, if_pos ⟨rfl, rfl⟩]
      exact (hempty .fd0).2
    · rw [World.setData_fdAt, if_pos ⟨rfl, rfl⟩]
      rfl
  · rw [World.setData_pollDataAt, if_pos ⟨rfl, rfl⟩]
    exact (hempty .fd0).2
  · rcases hun with hneg | ⟨hopen, hun⟩
    · exact Or.inl hneg
    · refine Or.inr ⟨hopen, fun l' r' place => ?_⟩
      rw [World.setData_fdAt]
      split
      · rename_i heq
        rw [heq.1, heq.2] at *
        exact hun l r place
      · exact hun l' r' place

theorem createExecutorData_spec {Q : Nat → World → Prop}
    (hQ : ∀ r w1, HandedOut w l r w1 → Q r (w1.setData l r { w1.data l r with
      createTime := ans.milliseconds, lastProcessTime := ans.milliseconds })) :
    Ensures (createExecutorData ans l) w Q := by
  simp only [createExecutorData, ensures_bind, ensures_modifyData, ensures_pure]
  exact allocateExecData_spec.mono (fun r w1 hh => hQ r w1 hh)

/-- What `createRequestExecutorInternal` and its like do, with the result of `up`. -/
structure Created (w : World) (l : Nat) (fd : Int) (e : Executor) (result : Int) (w' : World) :
    Prop where
  booked : Booked w'
  world : ∃ r w1 w2, Adopted w l r fd e w1 ∧ Did l r (some e) w1 w1 ∧ Did l r (some e) w1 w2 ∧
    ((result = 0 ∧ w' = w2) ∨ (result = -1 ∧ TakenBack l r w2 w'))

/-- The executors that listen open their socket themselves. -/
theorem did_serverUp {x : Option Executor} {w0 : World} (h : Did l r x w0 w)
    (hpoll : w.pollDataAt l r .fd0 = none) (hold : w.fdAt l r .fd0 = -1) :
    Ensures (serverUp ans l r) w (fun _ w' => Did l r x w0 w') := by
  simp only [serverUp, ensures_bind, ensures_modifyData]
  have h1 : Did l r x w0 (w.setData l r { w.data l r with removeOnTimeout := false, state := .ok }) :=
    h.data ⟨fun _ => rfl, fun _ => rfl⟩ rfl
  have hpoll1 : (w.setData l r { w.data l r with removeOnTimeout := false, state := .ok }).pollDataAt
      l r .fd0 = none := by
    rw [World.setData_pollDataAt, if_pos ⟨rfl, rfl⟩]
    exact hpoll
  have hold1 : (w.setData l r { w.data l r with removeOnTimeout := false, state := .ok }).fdAt
      l r .fd0 = -1 := by
    rw [World.setData_fdAt, if_pos ⟨rfl, rfl⟩]
    exact hold
  generalize w.setData l r { w.data l r with removeOnTimeout := false, state := .ok } = w1
    at h1 hpoll1 hold1
  refine socketListen_spec.mono (fun fd w2 hs => ?_)
  have h2 := ProxyExecutor.did_socket .fd0 h1 hpoll1 hold1 (fun hplace => by cases hplace) hs
  refine Preserves.ite Preserves.pure ?_ _ h2
  refine Preserves.bind did_addPollFd (fun added => ?_)
  exact Preserves.ite Preserves.pure Preserves.pure

/-- The data is taken back when `up` failed. -/
theorem finishUp_spec {result : Int} {w1 w2 : World} (ha : Adopted w l r fd e w1)
    (h1 : Did l r (some e) w1 w1) (h2 : Did l r (some e) w1 w2) :
    Ensures (if result ≠ 0 then do
      removeExecutorData l r
      return (-1 : Int)
      else return 0) w2 (fun res w' => Created w l fd e res w') := by
  simp only [ensures_ite, ensures_bind, ensures_pure]
  refine ⟨fun _ => ?_, fun _ => ⟨h2.booked, r, w1, w2, ha, h1, h2, Or.inl ⟨rfl, rfl⟩⟩⟩
  refine (removeExecutorData_spec h2.booked h2.inUse).mono (fun _ w3 h3 => ?_)
  exact ⟨h3.booked, r, w1, w2, ha, h1, h2, Or.inr ⟨rfl, h3⟩⟩

/-- The types that a connection is created with. -/
def ExecutorType.Requests (t : ExecutorType) : Prop := t = .request ∨ t = .requestSsl

theorem createRequestExecutorInternal_spec {execType : ExecutorType} (hb : Booked w)
    (htype : execType.Requests) (hopen : w.kernel.openId? fd ≠ none) (hun : w.Unheld fd) :
    Ensures (createRequestExecutorInternal ans l fd execType) w (fun res w' =>
      Created w l fd (PollLoop.getExecutor execType) res w') := by
  -- `up` starts from the adopted descriptor.
  have hup : ∀ r w1, Adopted w l r fd (PollLoop.getExecutor execType) w1 →
      Ensures (upCreated (PollLoop.getExecutor execType) ans l r) w1 (fun result w2 =>
        Ensures (if result ≠ 0 then do
          removeExecutorData l r
          return (-1 : Int)
          else return 0) w2 (fun res w' =>
            Created w l fd (PollLoop.getExecutor execType) res w')) := by
    intro r w1 ha
    have hdid := (ha.did hb (Or.inr ⟨hopen, hun⟩)).1
    have hsteps : Ensures (upCreated (PollLoop.getExecutor execType) ans l r) w1 (fun _ w' =>
        Did l r (some (PollLoop.getExecutor execType)) w1 w') := by
      rcases htype with rfl | rfl
      · exact RequestExecutor.did_up w1 hdid
      · exact SslRequestExecutor.did_up w1 hdid
    exact hsteps.mono (fun result w2 h2 => finishUp_spec ha hdid h2)
  rw [createRequestExecutorInternal, ensures_bind]
  refine createExecutorData_spec (fun r w1 hh => ?_)
  rw [ensures_bind, ensures_modifyData, World.setData_self, World.setData_setData, ensures_bind]
  exact hup r _ ⟨w1, ans.milliseconds, hh, rfl⟩

theorem listenPort_spec {execType : ExecutorType} (hb : Booked w) :
    Ensures (listenPort ans l execType) w (fun _ w' =>
      ∃ res, Created w l (-1) (PollLoop.getExecutor execType) res w') := by
  have hup : ∀ r w1, Adopted w l r (-1) (PollLoop.getExecutor execType) w1 →
      Ensures (upCreated (PollLoop.getExecutor execType) ans l r) w1 (fun result w2 =>
        Ensures (when (result ≠ 0) (removeExecutorData l r)) w2 (fun _ w' =>
          ∃ res, Created w l (-1) (PollLoop.getExecutor execType) res w')) := by
    intro r w1 ha
    obtain ⟨hdid, _, hpoll, hfd⟩ := ha.did hb (Or.inl rfl)
    have hsteps : Ensures (upCreated (PollLoop.getExecutor execType) ans l r) w1 (fun _ w' =>
        Did l r (some (PollLoop.getExecutor execType)) w1 w') := by
      generalize PollLoop.getExecutor execType = e at hdid
      cases e with
      | request => exact RequestExecutor.did_up w1 hdid
      | sslRequest => exact SslRequestExecutor.did_up w1 hdid
      | server => exact did_serverUp hdid hpoll hfd
      | sslServer => exact did_serverUp hdid hpoll hfd
      | _ => exact ensures_fail.mpr trivial
    refine hsteps.mono (fun result w2 h2 => ?_)
    rw [ensures_when]
    refine ⟨fun _ => ?_, fun _ =>
      ⟨0, h2.booked, r, w1, w2, ha, hdid, h2, Or.inl ⟨rfl, rfl⟩⟩⟩
    refine (removeExecutorData_spec h2.booked h2.inUse).mono (fun _ w3 h3 => ?_)
    exact ⟨-1, h3.booked, r, w1, w2, ha, hdid, h2, Or.inr ⟨rfl, h3⟩⟩
  rw [listenPort, ensures_bind]
  refine createExecutorData_spec (fun r w1 hh => ?_)
  rw [ensures_bind, ensures_modifyData, World.setData_self, World.setData_setData, ensures_bind]
  refine hup r _ ⟨w1, ans.milliseconds, hh, ?_⟩
  have hfd0 : (w1.data l r).fd0 = -1 :=
    (hh.fdAt hb l r .fd0).trans ((hb.loops l).idle r (hh.spec hb).1 .fd0).1
  rw [← hfd0]

/-! ## Who is in use -/

theorem HandedOut.inUse (hb : Booked w) (hh : HandedOut w l r w') (l' r' : Nat) :
    w'.InUse l' r' ↔ w.InUse l' r' ∨ (l' = l ∧ r' = r) := by
  by_cases hl : l' = l
  · rw [hl, (hh.spec hb).2.1]
    simp [or_comm]
  · obtain ⟨_, _, rfl⟩ := hh
    unfold World.InUse
    rw [World.setLoop_other _ _ hl]
    simp [hl]

theorem Adopted.inUse (hb : Booked w) (ha : Adopted w l r fd e w') (l' r' : Nat) :
    w'.InUse l' r' ↔ w.InUse l' r' ∨ (l' = l ∧ r' = r) := by
  obtain ⟨w1, _, hh, rfl⟩ := ha
  rw [inUse_setData (fun l => ((hb.handedOut hh).loops l).execs), hh.inUse hb]

theorem TakenBack.inUse (hb : Booked w) (ht : TakenBack l r w w') (l' r' : Nat) :
    w'.InUse l' r' ↔ w.InUse l' r' ∧ ¬ (l' = l ∧ r' = r) := by
  obtain ⟨_, w1, hdid, _, rfl⟩ := ht
  have hsame := (hdid.effects.booked hb).2
  have hfree := (hdid.booked.loops l).execs.free hdid.inUse
  by_cases hl : l' = l
  · unfold World.InUse
    rw [hl, World.setLoop_self, hfree.used]
    have hin := hsame l r'
    unfold World.InUse at hin
    rw [hin]
    simp
  · unfold World.InUse
    rw [World.setLoop_other _ _ hl]
    have hin := hsame l' r'
    unfold World.InUse at hin
    rw [hin]
    simp [hl]

/-- Who was in use before a new executor came is in use after it, also when it did not stay. -/
theorem Created.inUse {result : Int} (hb : Booked w) (hc : Created w l fd e result w')
    {l' r' : Nat} (huse : w.InUse l' r') : w'.InUse l' r' := by
  obtain ⟨_, r, w1, w2, ha, h1, h2, hend⟩ := hc
  have huse2 : w2.InUse l' r' :=
    ((h2.effects.booked h1.booked).2 l' r').mpr ((ha.inUse hb l' r').mpr (Or.inl huse))
  rcases hend with ⟨_, rfl⟩ | ⟨_, ht⟩
  · exact huse2
  · refine (ht.inUse h2.booked l' r').mpr ⟨huse2, ?_⟩
    rintro ⟨rfl, rfl⟩
    obtain ⟨_, _, hh, _⟩ := ha
    exact (hh.spec hb).1 huse

/-! ## A connection that was accepted -/

/-- What becomes of the descriptor of a client. -/
inductive Placed (l : Nat) (fd : Int) (execType : ExecutorType) (w : World) : World → Prop
  | created (result : Int) (w' : World) (hone : w.parameters.threadCount = 1)
      (h : Created w l fd (PollLoop.getExecutor execType) result w') : Placed l fd execType w w'
  | queued (i : Nat) : Placed l fd execType w (w.setLoop i { w.loops i with
      newFdsQueue := (w.loops i).newFdsQueue ++ [{ execType := execType, fd := fd }] })
  | closed : Placed l fd execType w (w.setKernel (w.kernel.close fd))

theorem createRequestExecutor_spec {execType : ExecutorType} (hb : Booked w)
    (htype : execType.Requests) (hopen : w.kernel.openId? fd ≠ none) (hun : w.Unheld fd) :
    Ensures (createRequestExecutor ans l fd execType) w (fun _ w' =>
      Placed l fd execType w w') := by
  simp only [createRequestExecutor, ensures_bind, ensures_get, ensures_ite]
  refine ⟨fun hone => ?_, fun _ => ?_⟩
  · exact (createRequestExecutorInternal_spec hb htype hopen hun).mono (fun res w' hc =>
      .created res w' hone hc)
  · simp only [serverCreateRequestExecutor, enqueueClientFd, ensures_bind, ensures_get,
      ensures_getLoop, ensures_ite, ensures_modifyLoop, ensures_pure, ensures_close]
    refine ⟨fun _ => ⟨fun _ => .closed, fun hne => absurd (by decide) hne⟩, fun _ =>
      ⟨fun hne => absurd rfl hne, fun _ => .queued _⟩⟩

/-- `accept4` answered with a client, or with none. -/
theorem serverProcess_spec {execType : ExecutorType} {events : Int} (hb : Booked w)
    (htype : execType.Requests) :
    Ensures (serverProcess execType ans l r events) w (fun _ w' =>
      w' = w ∨ ∃ fd, w.kernel.Available fd ∧
        Placed l fd execType (w.setKernel (w.kernel.opened fd true)) w') := by
  simp only [serverProcess, ensures_bind, ensures_getData, ensures_ite, ensures_pure]
  refine ⟨fun _ => Or.inl trivial, fun _ => newDescriptor_spec.mono (fun fd w1 hnew => ?_)⟩
  rcases hnew with ⟨rfl, rfl⟩ | ⟨rfl, havail, rfl⟩
  · exact ⟨fun _ => Or.inl rfl, fun hne => absurd rfl hne⟩
  · refine ⟨fun hneg => ?_, fun _ => ?_⟩
    · have hpos := havail.1
      omega
    · refine (createRequestExecutor_spec (hb.openedKernel havail) htype ?_
        (hb.unheld_of_closed havail.1 havail.2)).mono (fun _ w2 h2 =>
          Or.inr ⟨_, havail, h2⟩)
      rw [World.setKernel_kernel, Kernel.openId?_opened_self]
      exact Option.some_ne_none _

theorem Placed.booked {execType : ExecutorType} (hp : Placed l fd execType w w') (hb : Booked w)
    (hun : w.Unheld fd) : Booked w' ∧ ∀ l' r', w.InUse l' r' → w'.InUse l' r' := by
  cases hp with
  | created result w' hone h => exact ⟨h.booked, fun l' r' huse => h.inUse hb huse⟩
  | queued i =>
    refine ⟨hb.setLoop rfl rfl rfl id, fun l' r' huse => ?_⟩
    unfold World.InUse
    by_cases hl : l' = i
    · rw [hl, World.setLoop_self]
      exact hl ▸ huse
    · rw [World.setLoop_other _ _ hl]
      exact huse
  | closed => exact ⟨hb.closedKernel hun, fun l' r' huse => huse⟩

/-! ## A call of `process` -/

/-- What a call of `process` of the executor `r` does. -/
inductive Processed (l r : Nat) (e : Executor) (w : World) : World → Prop
  | did (x : Option Executor) (w' : World) (h : Did l r x w w') : Processed l r e w w'
  | accepted (fd : Int) (execType : ExecutorType) (w' : World)
      (he : (e = .server ∧ execType = .request) ∨ (e = .sslServer ∧ execType = .requestSsl))
      (havail : w.kernel.Available fd)
      (h : Placed l fd execType (w.setKernel (w.kernel.opened fd true)) w') : Processed l r e w w'

/-- An executor that serves a client leaves one behind that does. -/
theorem process_serving {events : Nat} (hserves : e.Serves) (h : Did l r (some e) w w) :
    Ensures (e.process ans l r fd events) w (fun _ w' => ∃ e', Did l r (some e') w w' ∧
      e'.Serves) := by
  have hkept : ∀ {α : Type} {m : Prog α}, Preserves (Did l r (some e) w) m →
      Ensures m w (fun _ w' => ∃ e', Did l r (some e') w w' ∧ e'.Serves) :=
    fun hm => (hm w h).mono (fun _ w' h' => ⟨e, h', hserves⟩)
  cases e with
  | newFd => exact hserves.elim
  | server => exact hserves.elim
  | sslServer => exact hserves.elim
  | request => exact RequestExecutor.did_process (Or.inl rfl) h
  | sslRequest => exact SslRequestExecutor.did_process (Or.inr rfl) h
  | file => exact hkept (FileExecutor.did_process .file)
  | sslFile => exact hkept SslFileExecutor.did_process
  | proxySplice => exact hkept ProxyExecutorSplice.did_process
  | proxyReadWrite => exact hkept (ProxyExecutorReadWrite.did_process .proxyReadWrite)
  | sslProxy => exact hkept (ProxyExecutorReadWrite.did_process .sslProxy)

theorem process_spec {events : Nat} (hb : Booked w) (huse : w.InUse l r)
    (he : (w.data l r).pExecutor = some e) :
    Ensures (e.process ans l r fd events) w (fun _ w' => Processed l r e w w') := by
  have h0 : Did l r (some e) w w := ⟨.refl, hb, huse, he⟩
  have hserved : e.Serves →
      Ensures (e.process ans l r fd events) w (fun _ w' => Processed l r e w w') :=
    fun hserves => (process_serving hserves h0).mono (fun _ w' h => by
      obtain ⟨e', h, _⟩ := h
      exact .did (some e') w' h)
  cases e with
  | newFd => exact ensures_fail.mpr trivial
  | server =>
    refine (serverProcess_spec hb (Or.inl rfl)).mono (fun _ w' h => ?_)
    rcases h with rfl | ⟨c, havail, hplaced⟩
    · exact .did _ _ h0
    · exact .accepted c _ w' (Or.inl ⟨rfl, rfl⟩) havail hplaced
  | sslServer =>
    refine (serverProcess_spec hb (Or.inr rfl)).mono (fun _ w' h => ?_)
    rcases h with rfl | ⟨c, havail, hplaced⟩
    · exact .did _ _ h0
    · exact .accepted c _ w' (Or.inr ⟨rfl, rfl⟩) havail hplaced
  | _ => exact hserved trivial

theorem Processed.booked (hp : Processed l r e w w') (hb : Booked w) :
    Booked w' ∧ ∀ l' r', w.InUse l' r' → w'.InUse l' r' := by
  cases hp with
  | did x w' h => exact ⟨h.booked, fun l' r' huse => ((h.effects.booked hb).2 l' r').mpr huse⟩
  | accepted c execType w' he havail h =>
    exact h.booked (hb.openedKernel havail) (hb.unheld_of_closed havail.1 havail.2)

end

end EpollHttp
