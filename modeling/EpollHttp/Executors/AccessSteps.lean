import EpollHttp.Executors.Access

/-
The calls of the executors, one after the other, and the bytes they move.
-/

namespace EpollHttp

open Program

section
variable {a : Access} {l r : Nat} {w0 w : World} {h : Place → Int} {t : Terms} {ans : Answers}

/-! ## Reading and writing -/

theorem handling_sslWriteFd0 (hw : a.writes .fd0) {bytes : Bytes} :
    Preserves (Handling a l r w0 h t) (sslWriteFd0 ans l r bytes) := by
  refine handling_getData (fun data hdata => ?_)
  refine Preserves.bind (handling_sslWrite hw (hdata .fd0)) (fun result => ?_)
  refine Preserves.ite Preserves.pure ?_
  cases ans.sslWriteError with
  | wantWrite => exact Preserves.pure
  | other => exact Preserves.pure
  | wantRead =>
    refine Preserves.bind handling_editPollFd (fun edited => ?_)
    exact Preserves.ite Preserves.pure Preserves.pure

theorem handling_sslReadFd0 (hr : a.reads .fd0) {count : Nat} :
    Preserves (Handling a l r w0 h t) (sslReadFd0 ans l r count) := by
  refine handling_getData (fun data hdata => ?_)
  refine Preserves.bind (handling_sslRead hr (hdata .fd0)) (fun bytes => ?_)
  refine Preserves.ite Preserves.pure ?_
  cases ans.sslReadError with
  | wantRead => exact Preserves.pure
  | other => exact Preserves.pure
  | wantWrite =>
    refine Preserves.bind handling_editPollFd (fun edited => ?_)
    exact Preserves.ite Preserves.pure Preserves.pure

theorem handling_readFd0 (e : Executor) (hr : a.reads .fd0) {count : Nat} :
    Preserves (Handling a l r w0 h t) (e.readFd0 ans l r count) := by
  have hplain : Preserves (Handling a l r w0 h t) (Executor.plainReadFd0 ans l r count) :=
    handling_getData (fun _ hdata =>
      Preserves.bind (handling_read hr (hdata .fd0)) (fun _ => Preserves.pure))
  cases e with
  | sslRequest => exact handling_sslReadFd0 hr
  | _ => exact hplain

theorem handling_writeFd0 (e : Executor) (hw : a.writes .fd0) {bytes : Bytes} :
    Preserves (Handling a l r w0 h t) (e.writeFd0 ans l r bytes) := by
  have hplain : Preserves (Handling a l r w0 h t) (Executor.plainWriteFd0 ans l r bytes) :=
    handling_getData (fun _ hdata =>
      Preserves.bind (handling_write hw (hdata .fd0)) (fun _ => Preserves.pure))
  cases e with
  | sslFile => exact handling_sslWriteFd0 hw
  | sslProxy => exact handling_sslWriteFd0 hw
  | _ => exact hplain

/-! ## Files -/

namespace FileExecutor

theorem handling_createHeaders {text : Nat → Option Bytes} :
    Preserves (Handling a l r w0 h t) (createHeaders l r text) := by
  refine handling_getData (fun data _ => ?_)
  rcases data.buffer.clear.startWrite with ⟨window, buffer⟩
  refine Preserves.bind (handling_assign (fun _ _ => rfl) (fun _ _ => rfl) (fun _ => rfl))
    (fun _ => ?_)
  cases window with
  | none => exact Preserves.pure
  | some window =>
    dsimp only
    cases text window.size with
    | none => exact Preserves.pure
    | some bytes =>
      exact Preserves.bind (handling_assign (fun _ _ => rfl) (fun _ _ => rfl) (fun _ => rfl))
        (fun _ => Preserves.pure)

theorem handling_watchClient : Preserves (Handling a l r w0 h t) (watchClient ans l r) := by
  refine handling_getData (fun data _ => ?_)
  refine Preserves.bind handling_editPollFd (fun edited => ?_)
  exact Preserves.ite Preserves.pure Preserves.pure

theorem handling_upNotFound : Preserves (Handling a l r w0 h t) (upNotFound ans l r) := by
  refine Preserves.bind handling_createHeaders (fun created => ?_)
  refine Preserves.ite Preserves.pure ?_
  refine Preserves.bind handling_watchClient (fun watching => ?_)
  refine Preserves.ite Preserves.pure ?_
  exact Preserves.bind handling_setState (fun _ => Preserves.pure)

theorem handling_upOpened : Preserves (Handling a l r w0 h t) (upOpened ans l r) := by
  unfold upOpened
  rcases ans.fstat with _ | ⟨size, lastModified⟩
  · exact Preserves.pure
  refine Preserves.bind (handling_assign (fun _ _ => rfl) (fun _ _ => rfl) (fun _ => rfl))
    (fun _ => ?_)
  refine handling_getData (fun data _ => ?_)
  refine Preserves.ite ?_ ?_
  · refine Preserves.bind handling_createHeaders (fun created => ?_)
    refine Preserves.ite Preserves.pure ?_
    exact Preserves.bind handling_setState (fun _ => handling_watchClient)
  · refine Preserves.bind (handling_getData (fun _ _ => handling_createHeaders)) (fun created => ?_)
    refine Preserves.ite Preserves.pure ?_
    exact Preserves.bind handling_setState (fun _ => handling_watchClient)

theorem handling_processSendHeaders (e : Executor) (hw : a.writes .fd0) :
    Preserves (Handling a l r w0 h t) (processSendHeaders e ans l r) := by
  refine handling_getData (fun data _ => ?_)
  cases data.buffer.startRead with
  | none => exact Preserves.pure
  | some window =>
    refine Preserves.bind (handling_writeFd0 e hw) (fun written => ?_)
    refine Preserves.ite ?_ ?_
    · refine Preserves.ite Preserves.pure ?_
      exact Preserves.bind handling_countRetry (fun _ => Preserves.pure)
    · refine Preserves.bind handling_clearRetries (fun _ => ?_)
      refine Preserves.bind (handling_assign (fun _ _ => rfl) (fun _ _ => rfl) (fun _ => rfl))
        (fun _ => ?_)
      refine Preserves.ite ?_ Preserves.pure
      refine Preserves.bind (handling_assign (fun _ _ => rfl) (fun _ _ => rfl) (fun _ => rfl))
        (fun _ => ?_)
      refine handling_getData (fun data _ => ?_)
      refine Preserves.ite Preserves.pure ?_
      exact Preserves.bind handling_setState (fun _ => Preserves.pure)

theorem handling_processSendFile (hr : a.reads .fd1) (hw : a.writes .fd0) :
    Preserves (Handling a l r w0 h t) (processSendFile ans l r) := by
  refine handling_getData (fun data hdata => ?_)
  refine Preserves.bind (handling_sendfile hw (hdata .fd0) hr (hdata .fd1)) (fun sent => ?_)
  refine Preserves.ite ?_ ?_
  · refine Preserves.ite ?_ Preserves.pure
    exact Preserves.bind handling_countRetry (fun _ => Preserves.pure)
  · refine Preserves.bind handling_clearRetries (fun _ => ?_)
    refine Preserves.bind (handling_assign (fun _ _ => rfl) (fun _ _ => rfl) (fun _ => rfl))
      (fun _ => ?_)
    refine handling_getData (fun data _ => ?_)
    exact Preserves.ite Preserves.pure Preserves.pure

theorem handling_process (e : Executor) (hr : a.reads .fd1) (hw : a.writes .fd0) {fd : Int}
    {events : Nat} : Preserves (Handling a l r w0 h t) (process e ans l r fd events) := by
  refine handling_getData (fun data _ => ?_)
  refine Preserves.ite (handling_processSendHeaders e hw) ?_
  exact Preserves.ite (handling_processSendFile hr hw) Preserves.pure

end FileExecutor

namespace SslFileExecutor

theorem handled_readFile (hr : a.reads .fd1) :
    Preserves (Handled a l r w0 t) (readFile ans l r) := by
  refine handled_getData (fun h data hdata => ?_)
  refine Leads.ite ?_ (handling_leads Preserves.pure)
  rcases data.buffer.startWrite with ⟨window, buffer⟩
  refine Leads.bind (handling_assign (fun _ _ => rfl) (fun _ _ => rfl) (fun _ => rfl)) (fun _ => ?_)
  cases window with
  | none => exact handling_leads Preserves.pure
  | some window =>
    refine Leads.bind (handling_read hr (hdata .fd1)) (fun received => ?_)
    refine Leads.ite (handling_leads Preserves.pure) ?_
    refine Leads.ite ?_ ?_
    · exact handled_leads (Preserves.bind handled_closeFd (fun _ => Preserves.pure))
    · refine handling_leads ?_
      exact Preserves.bind (handling_assign (fun _ _ => rfl) (fun _ _ => rfl) (fun _ => rfl))
        (fun _ => Preserves.pure)

theorem handling_countOperation {operationOk : Bool} :
    Preserves (Handling a l r w0 h t) (countOperation l r operationOk) :=
  Preserves.ite handling_clearRetries handling_countRetry

theorem handled_processSendFile (hr : a.reads .fd1) (hw : a.writes .fd0) :
    Preserves (Handled a l r w0 t) (processSendFile ans l r) := by
  refine Preserves.bind (handled_readFile hr) (fun file => ?_)
  cases file with
  | none => exact Preserves.pure
  | some operationOk =>
    refine handled_getData (fun h data hdata => handling_leads ?_)
    cases data.buffer.startRead with
    | some window =>
      refine Preserves.bind (handling_sslWrite hw (hdata .fd0)) (fun written => ?_)
      refine Preserves.ite ?_ ?_
      · refine Preserves.bind (handling_assign (fun _ _ => rfl) (fun _ _ => rfl) (fun _ => rfl))
          (fun _ => ?_)
        refine handling_getData (fun data _ => ?_)
        refine Preserves.ite Preserves.pure ?_
        exact Preserves.bind handling_countOperation (fun _ => Preserves.pure)
      · cases ans.sslWriteError with
        | wantWrite => exact Preserves.pure
        | other => exact Preserves.pure
        | wantRead =>
          refine Preserves.bind handling_editPollFd (fun edited => ?_)
          refine Preserves.ite Preserves.pure ?_
          exact Preserves.bind handling_countOperation (fun _ => Preserves.pure)
    | none =>
      refine Preserves.ite Preserves.pure ?_
      exact Preserves.bind handling_countOperation (fun _ => Preserves.pure)

theorem handled_process (hr : a.reads .fd1) (hw : a.writes .fd0) {fd : Int} {events : Nat} :
    Preserves (Handled a l r w0 t) (process ans l r fd events) := by
  refine handled_getData (fun h data _ => ?_)
  refine Leads.ite (handled_leads (handled_processSendFile hr hw)) ?_
  exact handling_leads (FileExecutor.handling_process .sslFile hr hw)

end SslFileExecutor

/-! ## Proxies -/

namespace ProxyExecutor

theorem handling_watchUpstream {connected : Bool} :
    Preserves (Handling a l r w0 h t) (watchUpstream ans l r connected) := by
  refine handling_getData (fun data _ => ?_)
  refine Preserves.bind handling_addPollFd (fun added => ?_)
  refine Preserves.ite Preserves.pure ?_
  refine Preserves.bind handling_removePollFd (fun removed => ?_)
  refine Preserves.ite Preserves.pure ?_
  exact Preserves.bind handling_setState (fun _ => Preserves.pure)

theorem handled_process {handlers : Handlers}
    (h1 : Preserves (Handled a l r w0 t) handlers.waitConnect)
    (h2 : Preserves (Handled a l r w0 t) handlers.forwardRequest)
    (h3 : Preserves (Handled a l r w0 t) handlers.forwardResponseRead)
    (h4 : Preserves (Handled a l r w0 t) handlers.forwardResponseWrite) {fd : Int} {events : Nat} :
    Preserves (Handled a l r w0 t) (process handlers l r fd events) := by
  refine handled_getData (fun h data _ => ?_)
  refine Leads.ite (handled_leads h1) ?_
  refine Leads.ite (handled_leads h2) ?_
  refine Leads.ite (handled_leads h3) ?_
  exact Leads.ite (handled_leads h4) (handling_leads Preserves.pure)

theorem handled_processForwardRequest {finish : Prog ProcessResult} (hw : a.writes .fd1)
    (hfinish : Preserves (Handled a l r w0 t) finish) :
    Preserves (Handled a l r w0 t) (processForwardRequest finish ans l r) := by
  refine handled_getData (fun h data hdata => ?_)
  cases data.buffer.startRead with
  | none => exact handling_leads Preserves.pure
  | some window =>
    refine Leads.bind (handling_write hw (hdata .fd1)) (fun written => ?_)
    refine Leads.ite (handling_leads ?_) ?_
    · refine Preserves.ite ?_ Preserves.pure
      exact Preserves.bind handling_countRetry (fun _ => Preserves.pure)
    · refine Leads.bind handling_clearRetries (fun _ => ?_)
      refine Leads.bind (handling_assign (fun _ _ => rfl) (fun _ _ => rfl) (fun _ => rfl))
        (fun _ => ?_)
      refine Leads.ite ?_ (handling_leads Preserves.pure)
      exact Leads.bind (handling_assign (fun _ _ => rfl) (fun _ _ => rfl) (fun _ => rfl))
        (fun _ => handled_leads hfinish)

theorem handled_processWaitConnect {forwardRequest : Prog ProcessResult}
    (hforward : Preserves (Handled a l r w0 t) forwardRequest) :
    Preserves (Handled a l r w0 t) (processWaitConnect forwardRequest ans l r) := by
  refine Preserves.ite ?_ ?_
  · exact Preserves.bind (Preserves.handled (fun _ => handling_setState)) (fun _ => hforward)
  · refine Preserves.handled (fun _ => Preserves.ite ?_ Preserves.pure)
    exact Preserves.bind handling_countRetry (fun _ => Preserves.pure)

theorem handling_watchResponse : Preserves (Handling a l r w0 h t) (watchResponse ans l r) := by
  refine handling_getData (fun data _ => ?_)
  refine Preserves.bind handling_editPollFd (fun edited => ?_)
  exact Preserves.ite Preserves.pure Preserves.pure

section
variable {next : Prog ProcessResult}

theorem handling_addClient (hnext : Preserves (Handling a l r w0 h t) next) :
    Preserves (Handling a l r w0 h t) (addClient ans l r next) := by
  refine handling_getData (fun data _ => ?_)
  refine Preserves.ite ?_ hnext
  exact Preserves.bind handling_addPollFd (fun added => Preserves.ite Preserves.pure hnext)

theorem handling_addUpstream (hnext : Preserves (Handling a l r w0 h t) next) :
    Preserves (Handling a l r w0 h t) (addUpstream ans l r next) := by
  refine handling_getData (fun data _ => ?_)
  refine Preserves.ite ?_ hnext
  exact Preserves.bind handling_addPollFd (fun added => Preserves.ite Preserves.pure hnext)

theorem handling_removeClient (hnext : Preserves (Handling a l r w0 h t) next) :
    Preserves (Handling a l r w0 h t) (removeClient l r next) := by
  refine handling_getData (fun data _ => ?_)
  refine Preserves.ite ?_ hnext
  exact Preserves.bind handling_removePollFd (fun removed => Preserves.ite Preserves.pure hnext)

theorem handling_removeUpstream (hnext : Preserves (Handling a l r w0 h t) next) :
    Preserves (Handling a l r w0 h t) (removeUpstream l r next) := by
  refine handling_getData (fun data _ => ?_)
  refine Preserves.ite ?_ hnext
  exact Preserves.bind handling_removePollFd (fun removed => Preserves.ite Preserves.pure hnext)

theorem handling_countAndReturnOk :
    Preserves (Handling a l r w0 h t) (countAndReturnOk l r) :=
  Preserves.bind handling_countRetry (fun _ => Preserves.pure)

end

end ProxyExecutor

namespace ProxyExecutorReadWrite

open ProxyExecutor

theorem handling_afterWrite : Preserves (Handling a l r w0 h t) (afterWrite ans l r) := by
  refine handling_getData (fun data _ => ?_)
  refine Preserves.ite Preserves.pure ?_
  exact Preserves.ite (handling_addUpstream Preserves.pure) Preserves.pure

theorem handling_processForwardResponseWrite (e : Executor) (hw : a.writes .fd0) :
    Preserves (Handling a l r w0 h t) (processForwardResponseWrite e ans l r) := by
  refine handling_getData (fun data _ => ?_)
  cases data.buffer.startRead with
  | some window =>
    refine Preserves.bind (handling_writeFd0 e hw) (fun written => ?_)
    refine Preserves.ite ?_ ?_
    · exact Preserves.ite (handling_addClient handling_countAndReturnOk) Preserves.pure
    · refine Preserves.bind handling_clearRetries (fun _ => ?_)
      exact Preserves.bind (handling_assign (fun _ _ => rfl) (fun _ _ => rfl) (fun _ => rfl))
        (fun _ => handling_afterWrite)
  | none => exact Preserves.ite Preserves.pure (handling_removeClient handling_countAndReturnOk)

theorem handled_processForwardResponseRead (e : Executor) (hr : a.reads .fd1)
    (hw : a.writes .fd0) :
    Preserves (Handled a l r w0 t) (processForwardResponseRead e ans l r) := by
  have hwrite : Preserves (Handled a l r w0 t) (processForwardResponseWrite e ans l r) :=
    Preserves.handled (fun _ => handling_processForwardResponseWrite e hw)
  refine handled_getData (fun h data hdata => ?_)
  rcases data.buffer.startWrite with ⟨window, buffer⟩
  refine Leads.bind (handling_assign (fun _ _ => rfl) (fun _ _ => rfl) (fun _ => rfl)) (fun _ => ?_)
  cases window with
  | none =>
    exact handling_leads (handling_removeUpstream (handling_addClient handling_countAndReturnOk))
  | some window =>
    refine Leads.bind (handling_read hr (hdata .fd1)) (fun received => ?_)
    refine Leads.ite ?_ ?_
    · refine Leads.ite (handled_leads ?_)
        (handling_leads (Preserves.ite handling_countAndReturnOk Preserves.pure))
      refine Preserves.bind handled_closeFd (fun _ => ?_)
      exact Preserves.bind (Preserves.handled (fun _ => handling_setState)) (fun _ => hwrite)
    · refine Leads.bind handling_clearRetries (fun _ => ?_)
      exact Leads.bind (handling_assign (fun _ _ => rfl) (fun _ _ => rfl) (fun _ => rfl))
        (fun _ => handled_leads hwrite)

theorem handled_process (e : Executor) (hr : a.reads .fd1) (hw0 : a.writes .fd0)
    (hw1 : a.writes .fd1) {fd : Int} {events : Nat} :
    Preserves (Handled a l r w0 t) (process e ans l r fd events) := by
  have hforward : Preserves (Handled a l r w0 t) (processForwardRequest ans l r) :=
    handled_processForwardRequest hw1 (Preserves.handled (fun _ => handling_watchResponse))
  exact ProxyExecutor.handled_process (handled_processWaitConnect hforward) hforward
    (handled_processForwardResponseRead e hr hw0)
    (Preserves.handled (fun _ => handling_processForwardResponseWrite e hw0))

end ProxyExecutorReadWrite

namespace ProxyExecutorSplice

open ProxyExecutor

theorem handling_afterWrite : Preserves (Handling a l r w0 h t) (afterWrite ans l r) := by
  refine handling_getData (fun data _ => ?_)
  refine Preserves.ite Preserves.pure ?_
  refine Preserves.ite Preserves.pure ?_
  exact Preserves.ite (handling_addClient handling_countAndReturnOk)
    (handling_removeClient (handling_addUpstream handling_countAndReturnOk))

theorem handling_processForwardResponseWrite (hw : a.writes .fd0) :
    Preserves (Handling a l r w0 h t) (processForwardResponseWrite ans l r) := by
  refine handling_getData (fun data hdata => ?_)
  refine Preserves.ite ?_ (Preserves.ite Preserves.pure handling_countAndReturnOk)
  refine Preserves.bind (handling_spliceOut (hdata .pipeRead) hw (hdata .fd0)) (fun written => ?_)
  refine Preserves.ite handling_countAndReturnOk ?_
  refine Preserves.ite ?_ ?_
  · refine Preserves.ite ?_ Preserves.pure
    exact Preserves.bind handling_countRetry (fun _ => handling_addClient Preserves.pure)
  · exact Preserves.bind (handling_assign (fun _ _ => rfl) (fun _ _ => rfl) (fun _ => rfl))
      (fun _ => handling_afterWrite)

theorem handled_processForwardResponseRead (hr : a.reads .fd1) (hw : a.writes .fd0) :
    Preserves (Handled a l r w0 t) (processForwardResponseRead ans l r) := by
  have hwrite : Preserves (Handled a l r w0 t) (processForwardResponseWrite ans l r) :=
    Preserves.handled (fun _ => handling_processForwardResponseWrite hw)
  refine handled_getData (fun h data hdata => ?_)
  refine Leads.bind (handling_spliceIn hr (hdata .fd1) (hdata .pipeWrite)) (fun received => ?_)
  refine Leads.ite (handled_leads ?_) ?_
  · refine Preserves.bind handled_closeFd (fun _ => ?_)
    exact Preserves.bind (Preserves.handled (fun _ => handling_setState)) (fun _ => hwrite)
  refine Leads.ite (handling_leads ?_) ?_
  · refine Preserves.ite ?_ Preserves.pure
    refine Preserves.bind handling_countRetry (fun _ => ?_)
    exact Preserves.ite (handling_removeUpstream Preserves.pure) Preserves.pure
  · exact Leads.bind (handling_assign (fun _ _ => rfl) (fun _ _ => rfl) (fun _ => rfl))
      (fun _ => handled_leads hwrite)

/-- The pipe is opened with both ends, or not at all. -/
theorem openPipe_kernel : Ensures (openPipe ans l r) w (fun _ w' => w' = w ∨
    ∃ readFd writeFd, w.kernel.Available readFd ∧
      (w.kernel.opened readFd false).Available writeFd ∧
      w' = (w.setKernel (((w.kernel.opened readFd false).opened writeFd false).joinPipe readFd
        writeFd)).setData l r
          { w.data l r with pipeReadFd := readFd, pipeWriteFd := writeFd }) := by
  unfold openPipe
  rcases ans.pipe2 with _ | ⟨readFd, writeFd⟩
  · exact ensures_pure.mpr (Or.inl rfl)
  simp only [ensures_ite, ensures_pure, ensures_bind, ensures_modifyKernel, ensures_modifyData]
  refine ⟨fun _ => Or.inl trivial, fun hpos => ?_⟩
  refine (newDescriptor_opened (fun hneg => hpos (Or.inl hneg))).mono (fun fd w1 hread => ?_)
  obtain ⟨rfl, hreadAvail, rfl⟩ := hread
  refine (newDescriptor_opened (fun hneg => hpos (Or.inr hneg))).mono (fun fd' w2 hwrite => ?_)
  obtain ⟨rfl, hwriteAvail, rfl⟩ := hwrite
  exact Or.inr ⟨fd, fd', hreadAvail, hwriteAvail, rfl⟩

theorem Flow.joinPipe {k : Kernel} {readFd writeFd : Int} (hf : Flow a l r w0 k)
    (hnew : ∀ id, k.openId? writeFd = some id → w0.kernel.nextId ≤ id) :
    Flow a l r w0 (k.joinPipe readFd writeFd) := by
  unfold Kernel.joinPipe
  split
  · rename_i readId writeId _ hwrite
    exact ⟨hf.below, hf.taken, hf.ended, hf.sent, hf.pipes,
      hf.readEnd.update (Or.inl (hnew writeId hwrite)) _⟩
  · exact hf

theorem handled_openPipe : Preserves (Handled a l r w0 t) (openPipe ans l r) := by
  rintro w ⟨h, H⟩
  refine ((did_openPipe w H.did).and openPipe_kernel).mono (fun _ w' hboth => ?_)
  obtain ⟨hd, rfl | ⟨readFd, writeFd, hread, hwrite, rfl⟩⟩ := hboth
  · exact H.handled
  have hpipe := Kernel.openedPipe hread hwrite
  have hne : readFd ≠ writeFd := by
    intro heq
    have hnone := hwrite.2
    rw [← heq, Kernel.openId?_opened_self] at hnone
    cases hnone
  have hnewId : w0.kernel.nextId ≤ w.kernel.nextId := H.flow.below
  -- The other descriptors stand for what they stood for.
  have hopen : ∀ place, (((w.kernel.opened readFd false).opened writeFd false).joinPipe readFd
      writeFd).openId? (h place) = w.kernel.openId? (h place) := by
    intro place
    have hread' : h place ≠ readFd := H.unheld hread
    have hwrite' : h place ≠ writeFd := by
      refine H.unheld ⟨hwrite.1, ?_⟩
      rw [← Kernel.openId?_opened_of_ne (Ne.symm hne) false]
      exact hwrite.2
    rw [(Kernel.SameTables.joinPipe _ _ _).openId?, Kernel.openId?_opened_of_ne hwrite',
      Kernel.openId?_opened_of_ne hread']
  have hheld : ∀ place, ((w.setKernel (((w.kernel.opened readFd false).opened writeFd
      false).joinPipe readFd writeFd)).setData l r
        { w.data l r with pipeReadFd := readFd, pipeWriteFd := writeFd }).fdAt l r place =
      Function.update (Function.update h .pipeRead readFd) .pipeWrite writeFd place := by
    intro place
    rw [World.setData_fdAt, if_pos ⟨rfl, rfl⟩]
    cases place
    · exact H.held .fd0
    · exact H.held .fd1
    · rfl
    · rfl
  have hreached : ∀ (may : Nat → Prop) (place : Place), Reached may w0 w (h place) →
      Reached may w0 ((w.setKernel (((w.kernel.opened readFd false).opened writeFd
        false).joinPipe readFd writeFd)).setData l r
          { w.data l r with pipeReadFd := readFd, pipeWriteFd := writeFd })
        (Function.update (Function.update h .pipeRead readFd) .pipeWrite writeFd place) := by
    intro may place hr
    cases place
    · exact hr.congr (hopen .fd0)
    · exact hr.congr (hopen .fd1)
    · intro id hid
      obtain rfl := Option.some.inj (hpipe.readFd.symm.trans hid)
      exact Or.inl hnewId
    · intro id hid
      obtain rfl := Option.some.inj (hpipe.writeFd.symm.trans hid)
      exact Or.inl (Nat.le_succ_of_le hnewId)
  refine ⟨_, hd, ?_, ?_, hheld, fun place ha => hreached _ _ (H.reads place ha),
    fun place ha => hreached _ _ (H.writes place ha), hreached _ .pipeRead H.pipe,
    fun id hid => ?_⟩
  · rw [World.setData_self]
    exact H.terms
  · refine Flow.joinPipe ((H.flow.opened readFd false).opened writeFd false) (fun id hid => ?_)
    rw [Kernel.openId?_opened_self] at hid
    obtain rfl := Option.some.inj hid
    exact Nat.le_succ_of_le hnewId
  · unfold World.HoldsAt at hid ⊢
    rw [hheld] at hid ⊢
    obtain rfl := Option.some.inj (hpipe.writeFd.symm.trans hid)
    exact hpipe.readFd.trans (congrArg some hpipe.readEnd.symm)

theorem handled_startResponse : Preserves (Handled a l r w0 t) (startResponse ans l r) := by
  refine handled_getData (fun h data _ => ?_)
  refine Leads.bind handling_editPollFd (fun edited => ?_)
  refine Leads.ite (handling_leads Preserves.pure) (handled_leads ?_)
  exact Preserves.bind handled_openPipe (fun _ => Preserves.ite Preserves.pure Preserves.pure)

theorem handled_process (hr : a.reads .fd1) (hw0 : a.writes .fd0) (hw1 : a.writes .fd1) {fd : Int}
    {events : Nat} : Preserves (Handled a l r w0 t) (process ans l r fd events) := by
  have hforward : Preserves (Handled a l r w0 t) (processForwardRequest ans l r) :=
    handled_processForwardRequest hw1 handled_startResponse
  exact ProxyExecutor.handled_process (handled_processWaitConnect hforward) hforward
    (handled_processForwardResponseRead hr hw0)
    (Preserves.handled (fun _ => handling_processForwardResponseWrite hw0))

end ProxyExecutorSplice

end

end EpollHttp
