import EpollHttp.Executors.Dispatch
import EpollHttp.Executors.Footprint

/-
The calls of the executors, one after the other, as chains of effects.
-/

namespace EpollHttp

open Program

section
variable {ans : Answers} {l r : Nat} {x : Option Executor} {w0 w : World}

/-! ## Reading and writing -/

theorem did_sslWriteFd0 {bytes : Bytes} : Preserves (Did l r x w0) (sslWriteFd0 ans l r bytes) := by
  refine Preserves.bind did_getData (fun data => ?_)
  refine Preserves.bind did_sslWrite (fun result => ?_)
  refine Preserves.ite Preserves.pure ?_
  cases ans.sslWriteError with
  | wantWrite => exact Preserves.pure
  | other => exact Preserves.pure
  | wantRead =>
    refine Preserves.bind did_editPollFd (fun edited => ?_)
    exact Preserves.ite Preserves.pure Preserves.pure

theorem did_sslReadFd0 {count : Nat} : Preserves (Did l r x w0) (sslReadFd0 ans l r count) := by
  refine Preserves.bind did_getData (fun data => ?_)
  refine Preserves.bind did_sslRead (fun bytes => ?_)
  refine Preserves.ite Preserves.pure ?_
  cases ans.sslReadError with
  | wantRead => exact Preserves.pure
  | other => exact Preserves.pure
  | wantWrite =>
    refine Preserves.bind did_editPollFd (fun edited => ?_)
    exact Preserves.ite Preserves.pure Preserves.pure

theorem did_readFd0 (e : Executor) {count : Nat} :
    Preserves (Did l r x w0) (e.readFd0 ans l r count) := by
  have hplain : Preserves (Did l r x w0) (Executor.plainReadFd0 ans l r count) := by
    refine Preserves.bind did_getData (fun data => ?_)
    exact Preserves.bind did_read (fun _ => Preserves.pure)
  cases e with
  | sslRequest => exact did_sslReadFd0
  | _ => exact hplain

theorem did_writeFd0 (e : Executor) {bytes : Bytes} :
    Preserves (Did l r x w0) (e.writeFd0 ans l r bytes) := by
  have hplain : Preserves (Did l r x w0) (Executor.plainWriteFd0 ans l r bytes) := by
    refine Preserves.bind did_getData (fun data => ?_)
    exact Preserves.bind did_write (fun _ => Preserves.pure)
  cases e with
  | sslFile => exact did_sslWriteFd0
  | sslProxy => exact did_sslWriteFd0
  | _ => exact hplain

/-- An assignment to a field that is no descriptor. -/
theorem did_assign {f : ExecutorData → ExecutorData}
    (hfd : ∀ d place, (f d).fdAt place = d.fdAt place)
    (hpoll : ∀ d place, (f d).pollDataAt place = d.pollDataAt place)
    (hexec : ∀ d, (f d).pExecutor = d.pExecutor) : Preserves (Did l r x w0) (modifyData l r f) :=
  did_modifyData (fun d => ⟨⟨hfd d, hpoll d⟩, hexec d⟩)

/-! ## Files -/

namespace FileExecutor

theorem did_createHeaders {text : Nat → Option Bytes} :
    Preserves (Did l r x w0) (createHeaders l r text) := by
  refine Preserves.bind did_getData (fun data => ?_)
  rcases data.buffer.clear.startWrite with ⟨window, buffer⟩
  refine Preserves.bind (did_assign (fun _ _ => rfl) (fun _ _ => rfl) (fun _ => rfl)) (fun _ => ?_)
  cases window with
  | none => exact Preserves.pure
  | some window =>
    dsimp only
    cases text window.size with
    | none => exact Preserves.pure
    | some bytes =>
      exact Preserves.bind (did_assign (fun _ _ => rfl) (fun _ _ => rfl) (fun _ => rfl))
        (fun _ => Preserves.pure)

theorem did_createOkResponse {lastModified : Int} :
    Preserves (Did l r x w0) (createOkResponse ans l r lastModified) :=
  Preserves.bind did_getData (fun _ => did_createHeaders)

theorem did_watchClient : Preserves (Did l r x w0) (watchClient ans l r) := by
  refine Preserves.bind did_getData (fun data => ?_)
  refine Preserves.bind did_editPollFd (fun edited => ?_)
  exact Preserves.ite Preserves.pure Preserves.pure

theorem did_upNotFound : Preserves (Did l r x w0) (upNotFound ans l r) := by
  refine Preserves.bind did_createHeaders (fun created => ?_)
  refine Preserves.ite Preserves.pure ?_
  refine Preserves.bind did_watchClient (fun watching => ?_)
  refine Preserves.ite Preserves.pure ?_
  exact Preserves.bind did_setState (fun _ => Preserves.pure)

theorem did_upOpened : Preserves (Did l r x w0) (upOpened ans l r) := by
  unfold upOpened
  rcases ans.fstat with _ | ⟨size, lastModified⟩
  · exact Preserves.pure
  refine Preserves.bind (did_assign (fun _ _ => rfl) (fun _ _ => rfl) (fun _ => rfl)) (fun _ => ?_)
  refine Preserves.bind did_getData (fun data => ?_)
  refine Preserves.ite ?_ ?_
  · refine Preserves.bind did_createHeaders (fun created => ?_)
    refine Preserves.ite Preserves.pure ?_
    exact Preserves.bind did_setState (fun _ => did_watchClient)
  · refine Preserves.bind did_createOkResponse (fun created => ?_)
    refine Preserves.ite Preserves.pure ?_
    exact Preserves.bind did_setState (fun _ => did_watchClient)

theorem did_processSendHeaders (e : Executor) :
    Preserves (Did l r x w0) (processSendHeaders e ans l r) := by
  refine Preserves.bind did_getData (fun data => ?_)
  cases data.buffer.startRead with
  | none => exact Preserves.pure
  | some window =>
    refine Preserves.bind (did_writeFd0 e) (fun written => ?_)
    refine Preserves.ite ?_ ?_
    · refine Preserves.ite Preserves.pure ?_
      exact Preserves.bind did_countRetry (fun _ => Preserves.pure)
    · refine Preserves.bind did_clearRetries (fun _ => ?_)
      refine Preserves.bind (did_assign (fun _ _ => rfl) (fun _ _ => rfl) (fun _ => rfl))
        (fun _ => ?_)
      refine Preserves.ite ?_ Preserves.pure
      refine Preserves.bind (did_assign (fun _ _ => rfl) (fun _ _ => rfl) (fun _ => rfl))
        (fun _ => ?_)
      refine Preserves.bind did_getData (fun data => ?_)
      refine Preserves.ite Preserves.pure ?_
      exact Preserves.bind did_setState (fun _ => Preserves.pure)

theorem did_processSendFile : Preserves (Did l r x w0) (processSendFile ans l r) := by
  refine Preserves.bind did_getData (fun data => ?_)
  refine Preserves.bind did_sendfile (fun sent => ?_)
  refine Preserves.ite ?_ ?_
  · refine Preserves.ite ?_ Preserves.pure
    exact Preserves.bind did_countRetry (fun _ => Preserves.pure)
  · refine Preserves.bind did_clearRetries (fun _ => ?_)
    refine Preserves.bind (did_assign (fun _ _ => rfl) (fun _ _ => rfl) (fun _ => rfl))
      (fun _ => ?_)
    refine Preserves.bind did_getData (fun data => ?_)
    exact Preserves.ite Preserves.pure Preserves.pure

theorem did_process (e : Executor) {fd : Int} {events : Nat} :
    Preserves (Did l r x w0) (process e ans l r fd events) := by
  refine Preserves.bind did_getData (fun data => ?_)
  refine Preserves.ite (did_processSendHeaders e) ?_
  exact Preserves.ite did_processSendFile Preserves.pure

/-- The descriptor of a file goes to an executor that holds nothing but its client. -/
theorem did_newFd1 {fd : Int} (hx : x ≠ some .request ∧ x ≠ some .sslRequest)
    (h : Did l r x w0 w) (halone : (w.data l r).Alone) :
    Ensures (newDescriptor fd false) w (fun fd1 w1 =>
      Did l r x w0 (w1.setData l r { w1.data l r with fd1 := fd1 })) := by
  refine newDescriptor_spec.mono (fun fd1 w1 hnew => ?_)
  rcases hnew with ⟨rfl, rfl⟩ | ⟨rfl, havail, rfl⟩
  · refine h.data ⟨fun place => ?_, fun _ => rfl⟩ rfl
    cases place with
    | fd1 => exact halone.1.symm
    | _ => rfl
  · refine h.step (.opened .fd1 fd1 h.inUse havail halone.2 (fun _ => halone.1)
      (fun _ hreq => ?_)) (by rw [World.setData_self]; rfl)
    rcases hreq with heq | heq
    · exact hx.1 (h.exec.symm.trans heq)
    · exact hx.2 (h.exec.symm.trans heq)

theorem did_up (hx : x ≠ some .request ∧ x ≠ some .sslRequest) (h : Did l r x w0 w)
    (halone : (w.data l r).Alone) : Ensures (up ans l r) w (fun _ w' => Did l r x w0 w') := by
  simp only [up, ensures_bind, ensures_modifyData]
  have h1 : Did l r x w0 (w.setData l r { w.data l r with removeOnTimeout := true }) :=
    h.data ⟨fun _ => rfl, fun _ => rfl⟩ rfl
  have halone1 : ((w.setData l r { w.data l r with removeOnTimeout := true }).data l r).Alone := by
    rw [World.setData_self]
    exact halone
  refine (did_newFd1 hx h1 halone1).mono (fun fd1 w2 h2 => ?_)
  exact Preserves.ite (Preserves.ite did_upNotFound Preserves.pure) did_upOpened _ h2

end FileExecutor

namespace SslFileExecutor

theorem did_readFile : Preserves (Did l r x w0) (readFile ans l r) := by
  refine Preserves.bind did_getData (fun data => ?_)
  refine Preserves.ite ?_ Preserves.pure
  rcases data.buffer.startWrite with ⟨window, buffer⟩
  refine Preserves.bind (did_assign (fun _ _ => rfl) (fun _ _ => rfl) (fun _ => rfl)) (fun _ => ?_)
  cases window with
  | none => exact Preserves.pure
  | some window =>
    refine Preserves.bind did_read (fun received => ?_)
    refine Preserves.ite Preserves.pure ?_
    refine Preserves.ite ?_ ?_
    · exact Preserves.bind did_closeFd (fun _ => Preserves.pure)
    · exact Preserves.bind (did_assign (fun _ _ => rfl) (fun _ _ => rfl) (fun _ => rfl))
        (fun _ => Preserves.pure)

theorem did_countOperation {operationOk : Bool} :
    Preserves (Did l r x w0) (countOperation l r operationOk) :=
  Preserves.ite did_clearRetries did_countRetry

theorem did_processSendFile : Preserves (Did l r x w0) (processSendFile ans l r) := by
  refine Preserves.bind did_readFile (fun file => ?_)
  cases file with
  | none => exact Preserves.pure
  | some operationOk =>
    refine Preserves.bind did_getData (fun data => ?_)
    cases data.buffer.startRead with
    | some window =>
      refine Preserves.bind did_sslWrite (fun written => ?_)
      refine Preserves.ite ?_ ?_
      · refine Preserves.bind (did_assign (fun _ _ => rfl) (fun _ _ => rfl) (fun _ => rfl))
          (fun _ => ?_)
        refine Preserves.bind did_getData (fun data => ?_)
        refine Preserves.ite Preserves.pure ?_
        exact Preserves.bind did_countOperation (fun _ => Preserves.pure)
      · cases ans.sslWriteError with
        | wantWrite => exact Preserves.pure
        | other => exact Preserves.pure
        | wantRead =>
          refine Preserves.bind did_editPollFd (fun edited => ?_)
          refine Preserves.ite Preserves.pure ?_
          exact Preserves.bind did_countOperation (fun _ => Preserves.pure)
    | none =>
      refine Preserves.ite Preserves.pure ?_
      exact Preserves.bind did_countOperation (fun _ => Preserves.pure)

theorem did_process {fd : Int} {events : Nat} :
    Preserves (Did l r x w0) (process ans l r fd events) := by
  refine Preserves.bind did_getData (fun data => ?_)
  exact Preserves.ite did_processSendFile (FileExecutor.did_process .sslFile)

end SslFileExecutor

/-! ## Proxies -/

namespace ProxyExecutor

theorem did_watchUpstream {connected : Bool} :
    Preserves (Did l r x w0) (watchUpstream ans l r connected) := by
  refine Preserves.bind did_getData (fun data => ?_)
  refine Preserves.bind did_addPollFd (fun added => ?_)
  refine Preserves.ite Preserves.pure ?_
  refine Preserves.bind did_removePollFd (fun removed => ?_)
  refine Preserves.ite Preserves.pure ?_
  exact Preserves.bind did_setState (fun _ => Preserves.pure)

/-- A socket is assigned to a place that holds nothing. -/
theorem did_socket (place : Place) {fd : Int} {w' : World} (h : Did l r x w0 w)
    (hpoll : w.pollDataAt l r place = none) (hold : w.fdAt l r place = -1)
    (hx : place = .fd1 → x ≠ some .request ∧ x ≠ some .sslRequest) (hs : Socket w fd w') :
    Did l r x w0 (w'.setData l r ((w'.data l r).withFd place fd)) := by
  -- Without a socket the place is assigned what it holds.
  have hkeep : ∀ w1, Did l r x w0 w1 → w1.data l r = w.data l r →
      Did l r x w0 (w1.setData l r ((w1.data l r).withFd place (-1))) := by
    intro w1 h1 hd
    refine h1.data ⟨fun place' => ?_, fun place' => ExecutorData.withFd_pollDataAt ..⟩
      (ExecutorData.withFd_pExecutor ..)
    by_cases heq : place' = place
    · have hfd : (w1.data l r).fdAt place = -1 := by
        rw [hd]
        exact hold
      rw [heq, ExecutorData.withFd_fdAt_self, hfd]
    · exact ExecutorData.withFd_fdAt_of_ne _ _ _ heq
  rcases hs with ⟨rfl, rfl | ⟨sock, havail, rfl⟩⟩ | ⟨havail, rfl⟩
  · exact hkeep _ h rfl
  · exact hkeep _ (h.step (.tried sock havail) rfl) rfl
  · refine h.step (.opened place fd h.inUse havail hpoll (fun _ => hold) (fun hplace hreq => ?_))
      (by rw [World.setData_self, ExecutorData.withFd_pExecutor]; rfl)
    rcases hreq with heq | heq
    · exact (hx hplace).1 (h.exec.symm.trans heq)
    · exact (hx hplace).2 (h.exec.symm.trans heq)

/-- The upstream server is connected to by an executor that holds nothing but its client. -/
theorem did_up (hx : x ≠ some .request ∧ x ≠ some .sslRequest) (h : Did l r x w0 w)
    (halone : (w.data l r).Alone) : Ensures (up ans l r) w (fun _ w' => Did l r x w0 w') := by
  simp only [up, ensures_bind, ensures_modifyData]
  have h1 : Did l r x w0 (w.setData l r { w.data l r with removeOnTimeout := true }) :=
    h.data ⟨fun _ => rfl, fun _ => rfl⟩ rfl
  have halone1 : ((w.setData l r { w.data l r with removeOnTimeout := true }).data l r).Alone := by
    rw [World.setData_self]
    exact halone
  generalize w.setData l r { w.data l r with removeOnTimeout := true } = w1 at h1 halone1
  rw [ensures_getData]
  cases (w1.data l r).proxy with
  | none => exact ensures_pure.mpr h1
  | some proxy =>
    simp only [ensures_ite, ensures_pure, ensures_bind, ensures_modifyData]
    refine ⟨fun _ => h1, fun _ => connect_spec.mono (fun res w2 hs => ?_)⟩
    have h2 := did_socket .fd1 h1 halone1.2 halone1.1 (fun _ => hx) hs
    exact ⟨fun _ => h2, fun _ => did_watchUpstream _ h2⟩

theorem did_process {handlers : Handlers} (h1 : Preserves (Did l r x w0) handlers.waitConnect)
    (h2 : Preserves (Did l r x w0) handlers.forwardRequest)
    (h3 : Preserves (Did l r x w0) handlers.forwardResponseRead)
    (h4 : Preserves (Did l r x w0) handlers.forwardResponseWrite) {fd : Int} {events : Nat} :
    Preserves (Did l r x w0) (process handlers l r fd events) := by
  refine Preserves.bind did_getData (fun data => ?_)
  refine Preserves.ite h1 ?_
  refine Preserves.ite h2 ?_
  refine Preserves.ite h3 ?_
  exact Preserves.ite h4 Preserves.pure

theorem did_processForwardRequest {finish : Prog ProcessResult}
    (hfinish : Preserves (Did l r x w0) finish) :
    Preserves (Did l r x w0) (processForwardRequest finish ans l r) := by
  refine Preserves.bind did_getData (fun data => ?_)
  cases data.buffer.startRead with
  | none => exact Preserves.pure
  | some window =>
    refine Preserves.bind did_write (fun written => ?_)
    refine Preserves.ite ?_ ?_
    · refine Preserves.ite ?_ Preserves.pure
      exact Preserves.bind did_countRetry (fun _ => Preserves.pure)
    · refine Preserves.bind did_clearRetries (fun _ => ?_)
      refine Preserves.bind (did_assign (fun _ _ => rfl) (fun _ _ => rfl) (fun _ => rfl))
        (fun _ => ?_)
      refine Preserves.ite ?_ Preserves.pure
      exact Preserves.bind (did_assign (fun _ _ => rfl) (fun _ _ => rfl) (fun _ => rfl))
        (fun _ => hfinish)

theorem did_processWaitConnect {forwardRequest : Prog ProcessResult}
    (hforward : Preserves (Did l r x w0) forwardRequest) :
    Preserves (Did l r x w0) (processWaitConnect forwardRequest ans l r) := by
  refine Preserves.ite ?_ ?_
  · exact Preserves.bind did_setState (fun _ => hforward)
  · refine Preserves.ite ?_ Preserves.pure
    exact Preserves.bind did_countRetry (fun _ => Preserves.pure)

theorem did_watchResponse : Preserves (Did l r x w0) (watchResponse ans l r) := by
  refine Preserves.bind did_getData (fun data => ?_)
  refine Preserves.bind did_editPollFd (fun edited => ?_)
  exact Preserves.ite Preserves.pure Preserves.pure

section
variable {next : Prog ProcessResult}

theorem did_addClient (hnext : Preserves (Did l r x w0) next) :
    Preserves (Did l r x w0) (addClient ans l r next) := by
  refine Preserves.bind did_getData (fun data => ?_)
  refine Preserves.ite ?_ hnext
  exact Preserves.bind did_addPollFd (fun added => Preserves.ite Preserves.pure hnext)

theorem did_addUpstream (hnext : Preserves (Did l r x w0) next) :
    Preserves (Did l r x w0) (addUpstream ans l r next) := by
  refine Preserves.bind did_getData (fun data => ?_)
  refine Preserves.ite ?_ hnext
  exact Preserves.bind did_addPollFd (fun added => Preserves.ite Preserves.pure hnext)

theorem did_removeClient (hnext : Preserves (Did l r x w0) next) :
    Preserves (Did l r x w0) (removeClient l r next) := by
  refine Preserves.bind did_getData (fun data => ?_)
  refine Preserves.ite ?_ hnext
  exact Preserves.bind did_removePollFd (fun removed => Preserves.ite Preserves.pure hnext)

theorem did_removeUpstream (hnext : Preserves (Did l r x w0) next) :
    Preserves (Did l r x w0) (removeUpstream l r next) := by
  refine Preserves.bind did_getData (fun data => ?_)
  refine Preserves.ite ?_ hnext
  exact Preserves.bind did_removePollFd (fun removed => Preserves.ite Preserves.pure hnext)

theorem did_countAndReturnOk : Preserves (Did l r x w0) (countAndReturnOk l r) :=
  Preserves.bind did_countRetry (fun _ => Preserves.pure)

end

end ProxyExecutor

namespace ProxyExecutorReadWrite

open ProxyExecutor

theorem did_afterWrite : Preserves (Did l r x w0) (afterWrite ans l r) := by
  refine Preserves.bind did_getData (fun data => ?_)
  refine Preserves.ite Preserves.pure ?_
  exact Preserves.ite (did_addUpstream Preserves.pure) Preserves.pure

theorem did_processForwardResponseWrite (e : Executor) :
    Preserves (Did l r x w0) (processForwardResponseWrite e ans l r) := by
  refine Preserves.bind did_getData (fun data => ?_)
  cases data.buffer.startRead with
  | some window =>
    refine Preserves.bind (did_writeFd0 e) (fun written => ?_)
    refine Preserves.ite ?_ ?_
    · exact Preserves.ite (did_addClient did_countAndReturnOk) Preserves.pure
    · refine Preserves.bind did_clearRetries (fun _ => ?_)
      exact Preserves.bind (did_assign (fun _ _ => rfl) (fun _ _ => rfl) (fun _ => rfl))
        (fun _ => did_afterWrite)
  | none => exact Preserves.ite Preserves.pure (did_removeClient did_countAndReturnOk)

theorem did_processForwardResponseRead (e : Executor) :
    Preserves (Did l r x w0) (processForwardResponseRead e ans l r) := by
  refine Preserves.bind did_getData (fun data => ?_)
  rcases data.buffer.startWrite with ⟨window, buffer⟩
  refine Preserves.bind (did_assign (fun _ _ => rfl) (fun _ _ => rfl) (fun _ => rfl)) (fun _ => ?_)
  cases window with
  | none => exact did_removeUpstream (did_addClient did_countAndReturnOk)
  | some window =>
    refine Preserves.bind did_read (fun received => ?_)
    refine Preserves.ite ?_ ?_
    · refine Preserves.ite ?_ (Preserves.ite did_countAndReturnOk Preserves.pure)
      refine Preserves.bind did_closeFd (fun _ => ?_)
      exact Preserves.bind did_setState (fun _ => did_processForwardResponseWrite e)
    · refine Preserves.bind did_clearRetries (fun _ => ?_)
      exact Preserves.bind (did_assign (fun _ _ => rfl) (fun _ _ => rfl) (fun _ => rfl))
        (fun _ => did_processForwardResponseWrite e)

theorem did_process (e : Executor) {fd : Int} {events : Nat} :
    Preserves (Did l r x w0) (process e ans l r fd events) := by
  have hforward : Preserves (Did l r x w0) (processForwardRequest ans l r) :=
    did_processForwardRequest did_watchResponse
  exact ProxyExecutor.did_process (did_processWaitConnect hforward) hforward
    (did_processForwardResponseRead e) (did_processForwardResponseWrite e)

end ProxyExecutorReadWrite

namespace ProxyExecutorSplice

open ProxyExecutor

theorem newDescriptor_opened {fd : Int} {accepted : Bool} (hfd : ¬ fd < 0) :
    Ensures (newDescriptor fd accepted) w (fun res w' => res = fd ∧ w.kernel.Available fd ∧
      w' = w.setKernel (w.kernel.opened fd accepted)) := by
  simp only [newDescriptor, ensures_bind, ensures_getKernel, ensures_ite, ensures_pure,
    ensures_modifyKernel, ensures_fail]
  exact ⟨fun hneg => absurd hneg hfd, fun _ => ⟨fun havail => ⟨trivial, havail, trivial⟩,
    fun _ => trivial⟩⟩

/-- The two ends are opened one after the other. -/
theorem did_openPipe : Preserves (Did l r x w0) (openPipe ans l r) := by
  intro w h
  unfold openPipe
  rcases ans.pipe2 with _ | ⟨readFd, writeFd⟩
  · exact ensures_pure.mpr h
  simp only [ensures_ite, ensures_pure, ensures_bind, ensures_modifyKernel, ensures_modifyData]
  refine ⟨fun _ => h, fun hpos => ?_⟩
  refine (newDescriptor_opened (fun hneg => hpos (Or.inl hneg))).mono (fun fd w1 hread => ?_)
  obtain ⟨rfl, hreadAvail, rfl⟩ := hread
  refine (newDescriptor_opened (fun hneg => hpos (Or.inr hneg))).mono (fun fd' w2 hwrite => ?_)
  obtain ⟨rfl, hwriteAvail, rfl⟩ := hwrite
  have h1 := h.step (.opened .pipeRead fd h.inUse hreadAvail rfl
    (fun hplace => by rcases hplace with heq | heq <;> cases heq) (fun hplace => by cases hplace))
    (by rw [World.setData_self, ExecutorData.withFd_pExecutor])
  have h2 := h1.step (.opened .pipeWrite fd' h1.inUse hwriteAvail rfl
    (fun hplace => by rcases hplace with heq | heq <;> cases heq) (fun hplace => by cases hplace))
    (by rw [World.setData_self, ExecutorData.withFd_pExecutor])
  have h3 := h2.bytes (Kernel.SameTables.joinPipe _ fd fd')
  rw [World.setData_self] at h3
  simp only [World.setData_setKernel, World.setData_setData] at h3
  exact h3

theorem did_startResponse : Preserves (Did l r x w0) (startResponse ans l r) := by
  refine Preserves.bind did_getData (fun data => ?_)
  refine Preserves.bind did_editPollFd (fun edited => ?_)
  refine Preserves.ite Preserves.pure ?_
  exact Preserves.bind did_openPipe (fun _ => Preserves.ite Preserves.pure Preserves.pure)

theorem did_afterWrite : Preserves (Did l r x w0) (afterWrite ans l r) := by
  refine Preserves.bind did_getData (fun data => ?_)
  refine Preserves.ite Preserves.pure ?_
  refine Preserves.ite Preserves.pure ?_
  exact Preserves.ite (did_addClient did_countAndReturnOk)
    (did_removeClient (did_addUpstream did_countAndReturnOk))

theorem did_processForwardResponseWrite :
    Preserves (Did l r x w0) (processForwardResponseWrite ans l r) := by
  refine Preserves.bind did_getData (fun data => ?_)
  refine Preserves.ite ?_ (Preserves.ite Preserves.pure did_countAndReturnOk)
  refine Preserves.bind did_spliceOut (fun written => ?_)
  refine Preserves.ite did_countAndReturnOk ?_
  refine Preserves.ite ?_ ?_
  · refine Preserves.ite ?_ Preserves.pure
    exact Preserves.bind did_countRetry (fun _ => did_addClient Preserves.pure)
  · exact Preserves.bind (did_assign (fun _ _ => rfl) (fun _ _ => rfl) (fun _ => rfl))
      (fun _ => did_afterWrite)

theorem did_processForwardResponseRead :
    Preserves (Did l r x w0) (processForwardResponseRead ans l r) := by
  refine Preserves.bind did_getData (fun data => ?_)
  refine Preserves.bind did_spliceIn (fun received => ?_)
  refine Preserves.ite ?_ ?_
  · refine Preserves.bind did_closeFd (fun _ => ?_)
    exact Preserves.bind did_setState (fun _ => did_processForwardResponseWrite)
  refine Preserves.ite ?_ ?_
  · refine Preserves.ite ?_ Preserves.pure
    refine Preserves.bind did_countRetry (fun _ => ?_)
    exact Preserves.ite (did_removeUpstream Preserves.pure) Preserves.pure
  · exact Preserves.bind (did_assign (fun _ _ => rfl) (fun _ _ => rfl) (fun _ => rfl))
      (fun _ => did_processForwardResponseWrite)

theorem did_process {fd : Int} {events : Nat} :
    Preserves (Did l r x w0) (process ans l r fd events) := by
  have hforward : Preserves (Did l r x w0) (processForwardRequest ans l r) :=
    did_processForwardRequest did_startResponse
  exact ProxyExecutor.did_process (did_processWaitConnect hforward) hforward
    did_processForwardResponseRead did_processForwardResponseWrite

end ProxyExecutorSplice

/-! ## Requests -/

theorem Did.serving (h : Did l r x w0 w) (hx : x = some .request ∨ x = some .sslRequest) :
    ∃ e, Did l r (some e) w0 w ∧ e.Serves := by
  rcases hx with rfl | rfl
  · exact ⟨.request, h, trivial⟩
  · exact ⟨.sslRequest, h, trivial⟩

namespace RequestExecutor

theorem did_prepare {connectionType : Nat} :
    Preserves (Did l r x w0) (prepare l r connectionType) := by
  unfold prepare
  -- The new buffer is long, and nothing depends on what is in it.
  generalize List.replicate ExecutorData.REQUEST_BUFFER_SIZE (0 : UInt8) = bytes
  exact did_assign (fun _ _ => rfl) (fun _ _ => rfl) (fun _ => rfl)

theorem did_up : Preserves (Did l r x w0) (up ans l r) := by
  refine Preserves.bind did_prepare (fun _ => ?_)
  refine Preserves.bind did_getData (fun data => ?_)
  refine Preserves.bind did_addPollFd (fun added => ?_)
  refine Preserves.ite Preserves.pure ?_
  exact Preserves.bind did_setState (fun _ => Preserves.pure)

theorem did_readRequest (e : Executor) : Preserves (Did l r x w0) (readRequest e ans l r) := by
  refine Preserves.bind did_getData (fun data => ?_)
  rcases data.buffer.startWrite with ⟨window, buffer⟩
  refine Preserves.bind (did_assign (fun _ _ => rfl) (fun _ _ => rfl) (fun _ => rfl)) (fun _ => ?_)
  cases window with
  | none => exact Preserves.pure
  | some window =>
    refine Preserves.bind (did_readFd0 e) (fun received => ?_)
    refine Preserves.ite ?_ ?_
    · refine Preserves.ite Preserves.pure ?_
      exact Preserves.bind did_countRetry (fun _ => Preserves.pure)
    · refine Preserves.bind (did_assign (fun _ _ => rfl) (fun _ _ => rfl) (fun _ => rfl))
        (fun _ => ?_)
      exact Preserves.bind did_clearRetries (fun _ => Preserves.pure)

theorem setLoop_setLoop (w : World) (loop loop' : PollLoop) :
    (w.setLoop l loop).setLoop l loop' = w.setLoop l loop' := by
  simp [World.setLoop]

theorem setLoop_pExecutor {b : Bytes} :
    ((w.setLoop l { w.loops l with fileNameBuffer := b }).data l r).pExecutor =
      (w.data l r).pExecutor := by
  rw [World.setLoop_data]
  exact fun _ => rfl

/-- The name goes behind the root folder. -/
theorem did_appendFileName (h : Did l r x w0 w) {name : Bytes} (hname : name = indexHtml ∨
      (w.loops l).rootFolderLength + name.length ≤ MAX_FILE_NAME) :
    Ensures (appendFileName l name)
      (w.setLoop l { w.loops l with fileNameBuffer := cutFileName (w.loops l) })
      (fun _ w' => Did l r x w0 w') := by
  unfold appendFileName
  rw [ensures_modifyLoop, World.setLoop_self, setLoop_setLoop]
  exact h.step (.named name hname) setLoop_pExecutor

theorem did_nameFile {url : Bytes} : Preserves (Did l r x w0) (nameFile l url) := by
  intro w h
  have hcut : Did l r x w0
      (w.setLoop l { w.loops l with fileNameBuffer := cutFileName (w.loops l) }) :=
    h.step .cut setLoop_pExecutor
  simp only [nameFile, ensures_bind, ensures_modifyLoop, ensures_ite, ensures_getLoop,
    ensures_pure, World.setLoop_self]
  exact ⟨fun _ => did_appendFileName h (Or.inl rfl),
    fun _ => ⟨fun hle => did_appendFileName h (Or.inr hle), fun _ => hcut⟩⟩

theorem did_dispatchRequest {request : HttpRequest} :
    Preserves (Did l r x w0) (dispatchRequest l r request) := by
  refine Preserves.bind did_getData (fun data => ?_)
  refine Preserves.bind Preserves.get (fun w => ?_)
  cases findProxy w.parameters.proxies request with
  | some proxy =>
    refine Preserves.ite Preserves.pure ?_
    exact Preserves.bind (did_assign (fun _ _ => rfl) (fun _ _ => rfl) (fun _ => rfl))
      (fun _ => Preserves.pure)
  | none =>
    cases request.getUrl with
    | none => exact Preserves.pure
    | some url => exact did_nameFile

theorem did_parseRequest : Preserves (Did l r x w0) (parseRequest l r) := by
  refine Preserves.bind did_getData (fun data => ?_)
  cases data.buffer.startRead with
  | none => exact Preserves.pure
  | some window =>
    dsimp only
    rcases data.request.parse (data.buffer.slice window.start (window.start + window.size)) with
      _ | ⟨result, request⟩
    · exact Preserves.fail
    refine Preserves.bind (did_assign (fun _ _ => rfl) (fun _ _ => rfl) (fun _ => rfl))
      (fun _ => ?_)
    cases result with
    | finishOk => exact did_dispatchRequest
    | needMoreData => exact Preserves.pure
    | finishInvalid => exact Preserves.pure

/-- The executor that answers takes over from one that holds nothing but its client. -/
theorem did_setExecutor {e : Executor} (he : e ≠ .request ∧ e ≠ .sslRequest)
    (h : Did l r x w0 w) (halone : (w.data l r).Alone) :
    Ensures (setExecutor e ans l r) w (fun _ w' => Did l r (some e) w0 w') := by
  have hx : some e ≠ some Executor.request ∧ some e ≠ some Executor.sslRequest :=
    ⟨fun heq => he.1 (Option.some.inj heq), fun heq => he.2 (Option.some.inj heq)⟩
  have h1 : Did l r (some e) w0 (w.setData l r { w.data l r with pExecutor := some e }) :=
    h.become (d := { w.data l r with pExecutor := some e }) ⟨fun _ => rfl, fun _ => rfl⟩
      (fun _ => halone)
  have halone1 : ((w.setData l r { w.data l r with pExecutor := some e }).data l r).Alone := by
    rw [World.setData_self]
    exact halone
  have hup : Ensures (upAnswering e ans l r) (w.setData l r { w.data l r with pExecutor := some e })
      (fun _ w' => Did l r (some e) w0 w') := by
    cases e with
    | file => exact FileExecutor.did_up hx h1 halone1
    | sslFile => exact FileExecutor.did_up hx h1 halone1
    | proxySplice => exact ProxyExecutor.did_up hx h1 halone1
    | proxyReadWrite => exact ProxyExecutor.did_up hx h1 halone1
    | sslProxy => exact ProxyExecutor.did_up hx h1 halone1
    | _ => exact ensures_fail.mpr trivial
  simp only [setExecutor, ensures_bind, ensures_modifyData, ensures_ite, ensures_pure]
  exact hup.mono (fun _ _ h2 => ⟨fun _ => h2, fun _ => h2⟩)

/-- The executors that requests are handed over to. -/
theorem did_processReadRequest {e : Executor} {fileType proxyType : ExecutorType}
    (hx : x = some .request ∨ x = some .sslRequest)
    (hfile : PollLoop.getExecutor fileType ≠ .request ∧
      PollLoop.getExecutor fileType ≠ .sslRequest)
    (hproxy : PollLoop.getExecutor proxyType ≠ .request ∧
      PollLoop.getExecutor proxyType ≠ .sslRequest)
    (hserves : (PollLoop.getExecutor fileType).Serves ∧ (PollLoop.getExecutor proxyType).Serves)
    (h : Did l r x w0 w) :
    Ensures (processReadRequest e fileType proxyType ans l r) w
      (fun _ w' => ∃ e', Did l r (some e') w0 w' ∧ e'.Serves) := by
  simp only [processReadRequest, ensures_bind, ensures_ite, ensures_pure]
  refine (did_readRequest e w h).mono (fun received w1 h1 => ?_)
  refine ⟨fun _ => h1.serving hx, fun _ => ?_⟩
  refine (did_parseRequest w1 h1).mono (fun result w2 h2 => ?_)
  have halone : (w2.data l r).Alone := by
    refine (h2.booked.loops l).alone r ?_
    unfold ExecutorData.Requester
    rw [h2.exec]
    exact hx
  cases result with
  | file => exact (did_setExecutor hfile h2 halone).mono (fun _ _ h3 => ⟨_, h3, hserves.1⟩)
  | proxy => exact (did_setExecutor hproxy h2 halone).mono (fun _ _ h3 => ⟨_, h3, hserves.2⟩)
  | invalid => exact ensures_pure.mpr (h2.serving hx)
  | again => exact ensures_pure.mpr (h2.serving hx)

theorem did_process {fd : Int} {events : Nat} (hx : x = some .request ∨ x = some .sslRequest)
    (h : Did l r x w0 w) :
    Ensures (process ans l r fd events) w
      (fun _ w' => ∃ e, Did l r (some e) w0 w' ∧ e.Serves) := by
  simp only [process, ensures_bind, ensures_getData, ensures_ite, ensures_pure]
  exact ⟨fun _ => did_processReadRequest hx (by decide) (by decide) ⟨trivial, trivial⟩ h,
    fun _ => h.serving hx⟩

end RequestExecutor

namespace SslRequestExecutor

theorem did_sslInit : Preserves (Did l r x w0) (sslInit ans l r) := by
  refine Preserves.ite ?_ Preserves.pure
  exact Preserves.bind (did_assign (fun _ _ => rfl) (fun _ _ => rfl) (fun _ => rfl))
    (fun _ => Preserves.pure)

theorem did_watchHandshake {firstTime : Bool} {events : Nat} :
    Preserves (Did l r x w0) (watchHandshake ans l r firstTime events) := by
  refine Preserves.bind did_getData (fun data => ?_)
  exact Preserves.ite (Preserves.bind did_addPollFd (fun _ => Preserves.pure))
    (Preserves.bind did_editPollFd (fun _ => Preserves.pure))

theorem did_handleHandshake {firstTime : Bool} :
    Preserves (Did l r x w0) (handleHandshake ans l r firstTime) := by
  unfold handleHandshake
  cases ans.sslDoHandshake with
  | none => exact Preserves.pure
  | some error =>
    cases error with
    | wantWrite => exact did_watchHandshake
    | wantRead => exact did_watchHandshake
    | other => exact Preserves.pure

theorem did_upHandshake : Preserves (Did l r x w0) (upHandshake ans l r) := by
  refine Preserves.bind did_handleHandshake (fun result => ?_)
  cases result with
  | ok =>
    refine Preserves.bind did_getData (fun data => ?_)
    refine Preserves.bind did_addPollFd (fun added => ?_)
    refine Preserves.ite Preserves.pure ?_
    exact Preserves.bind did_setState (fun _ => Preserves.pure)
  | again => exact Preserves.bind did_setState (fun _ => Preserves.pure)
  | error => exact Preserves.pure

theorem did_up : Preserves (Did l r x w0) (up ans l r) := by
  refine Preserves.bind RequestExecutor.did_prepare (fun _ => ?_)
  refine Preserves.bind did_sslInit (fun inited => ?_)
  exact Preserves.ite Preserves.pure did_upHandshake

theorem did_processHandshake : Preserves (Did l r x w0) (processHandshake ans l r) := by
  refine Preserves.bind did_handleHandshake (fun result => ?_)
  cases result with
  | ok =>
    refine Preserves.bind did_getData (fun data => ?_)
    refine Preserves.bind did_editPollFd (fun edited => ?_)
    refine Preserves.ite Preserves.pure ?_
    exact Preserves.bind did_setState (fun _ => Preserves.pure)
  | again => exact Preserves.bind did_countRetry (fun _ => Preserves.pure)
  | error => exact Preserves.pure

theorem did_process {fd : Int} {events : Nat} (hx : x = some .request ∨ x = some .sslRequest)
    (h : Did l r x w0 w) :
    Ensures (process ans l r fd events) w
      (fun _ w' => ∃ e, Did l r (some e) w0 w' ∧ e.Serves) := by
  simp only [process, ensures_bind, ensures_getData, ensures_ite, ensures_pure]
  exact ⟨fun _ => (did_processHandshake w h).mono (fun _ _ h1 => h1.serving hx), fun _ =>
    ⟨fun _ => RequestExecutor.did_processReadRequest hx (by decide) (by decide)
      ⟨trivial, trivial⟩ h, fun _ => h.serving hx⟩⟩

end SslRequestExecutor

end

end EpollHttp
