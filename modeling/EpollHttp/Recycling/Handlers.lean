import EpollHttp.Recycling.Calls
import EpollHttp.Executors.RequestExecutor

/-
The executors in twin worlds.

An executor that works on data of which the buffers and the requests are alike does the same in
both worlds, and leaves such data.
-/

namespace EpollHttp

open Program

section
variable {K : Scope} {ans : Answers} {l r : Nat}

/-! ## Files -/

namespace FileExecutor

/-- A text that fits into its window with the terminator behind it. -/
def Fits (text : Nat → Option Bytes) : Prop :=
  ∀ size bytes, text size = some bytes → bytes.length < size

theorem fits_printed (bytes : Bytes) : Fits (HttpResponse.printed bytes) := by
  intro size printed h
  unfold HttpResponse.printed at h
  split at h
  · cases h
  · rename_i hsize
    obtain rfl : bytes = printed := Option.some.inj h
    omega

theorem createHeaders_coupled (hk : ∀ exec, K l r exec) {text : Nat → Option Bytes}
    (htext : Fits text) :
    Coupled (Twins K) (Twins K) (createHeaders l r text) (createHeaders l r text) := by
  refine getData_known hk (fun d buffer request hb _ => ?_)
  obtain ⟨window, c, c', heq, heq', hc, hwritable⟩ := hb.clear.startWrite
  dsimp only
  rw [heq, heq']
  have hstart : Coupled (Holding K l r d.buffer buffer) (Holding K l r c c')
      (modifyData l r (fun d => { d with buffer := c }))
      (modifyData l r (fun d => { d with buffer := c' })) :=
    storeBuffer_coupled (fun _ _ _ => rfl) (fun _ _ => ⟨rfl, rfl, rfl⟩) hc
  refine hstart.bind (fun _ => ?_)
  cases window with
  | none => exact Coupled.pure.post (fun _ _ h => h.twins)
  | some w =>
    dsimp only
    cases hbytes : text w.size with
    | none => exact Coupled.pure.post (fun _ _ h => h.twins)
    | some bytes =>
      have hlen : bytes.length + ([0] : Bytes).length ≤ w.size := htext w.size bytes hbytes
      exact .bind (storeBuffer_twins (fun _ _ _ => rfl) (fun _ hd => hd ▸ ⟨rfl, rfl, rfl⟩)
        (hc.filled (hwritable w rfl) hlen)) (fun _ => .pure)

theorem createResponse_coupled (hk : ∀ exec, K l r exec) (statusCode : HttpCode) :
    Coupled (Twins K) (Twins K) (createResponse l r statusCode)
      (createResponse l r statusCode) := by
  refine createHeaders_coupled hk ?_
  cases statusCode with
  | notFound => exact fits_printed _
  | notModified => exact fits_printed _
  | ok => exact fun _ _ h => nomatch h

theorem createOkResponse_coupled (hk : ∀ exec, K l r exec) (lastModified : Int) :
    Coupled (Twins K) (Twins K) (createOkResponse ans l r lastModified)
      (createOkResponse ans l r lastModified) :=
  (framed_twins K).getData (fun _ _ _ => createHeaders_coupled hk (fits_printed _))

theorem watchClient_coupled :
    Coupled (Twins K) (Twins K) (watchClient ans l r) (watchClient ans l r) :=
  (framed_twins K).getData (fun _ _ _ =>
    ((framed_twins K).editPollFd ans l r _ _).bind (fun _ => .ite .pure .pure))

theorem upNotFound_coupled (hk : ∀ exec, K l r exec) :
    Coupled (Twins K) (Twins K) (upNotFound ans l r) (upNotFound ans l r) :=
  (createResponse_coupled hk _).bind (fun _ => .ite .pure (watchClient_coupled.bind (fun _ =>
    .ite .pure ((setState_coupled _).bind (fun _ => .pure)))))

theorem upOpened_coupled (hk : ∀ exec, K l r exec) :
    Coupled (Twins K) (Twins K) (upOpened ans l r) (upOpened ans l r) := by
  unfold upOpened
  cases ans.fstat with
  | none => exact .pure
  | some found =>
    refine .bind (modifyData_same (fun _ _ _ => rfl) (fun _ => ⟨rfl, rfl, rfl⟩)) (fun _ =>
      getData_known hk (fun d buffer request _ hq => ?_))
    dsimp only
    rw [hq.getIfModifiedSince]
    refine Coupled.pre ?_ (fun _ _ h => h.twins)
    refine .ite ((createResponse_coupled hk _).bind (fun _ => .ite .pure
      ((setState_coupled _).bind (fun _ => watchClient_coupled)))) ?_
    exact (createOkResponse_coupled hk _).bind (fun _ => .ite .pure
      ((setState_coupled _).bind (fun _ => watchClient_coupled)))

theorem up_coupled (hk : ∀ exec, K l r exec) :
    Coupled (Twins K) (Twins K) (up ans l r) (up ans l r) := by
  refine .bind (modifyData_same (fun _ _ _ => rfl) (fun _ => ⟨rfl, rfl, rfl⟩)) (fun _ =>
    ((framed_twins K).newDescriptor _ _).bind (fun fd1 =>
      .bind (modifyData_same (fun _ _ _ => rfl) (fun _ => ⟨rfl, rfl, rfl⟩)) (fun _ => ?_)))
  exact .ite (.ite (upNotFound_coupled hk) .pure) (upOpened_coupled hk)

/-- The bytes of the window are written, and what was taken is given back. -/
theorem processSendHeaders_coupled (hk : ∀ exec, K l r exec) (e : Executor) :
    Coupled (Twins K) (Twins K) (processSendHeaders e ans l r) (processSendHeaders e ans l r) := by
  refine getData_known hk (fun d buffer request hb _ => ?_)
  dsimp only
  rw [hb.startRead]
  cases hw : d.buffer.startRead with
  | none => exact Coupled.pure.post (fun _ _ h => h.twins)
  | some w =>
    dsimp only
    rw [hb.slice hw]
    refine ((framed_holding K l r _ _).writeFd0 e ans l r _).bindOf (fun _ => writeFd0_atMost e)
      (fun written hlen => ?_)
    have hle : written.result.toNat ≤ w.size := by
      have hwindow := d.buffer.slice_length_le w
      omega
    refine .ite (Coupled.pre ?_ (fun _ _ h => h.twins)) ?_
    · exact .ite .pure (countRetry_coupled.bind (fun _ => .pure))
    · refine (clearRetries_holding hb).bind (fun _ => .bind (storeBuffer_twins (fun _ _ _ => rfl)
        (fun _ hd => hd ▸ ⟨rfl, rfl, rfl⟩) (hb.endRead hw hle)) (fun _ => .ite ?_ .pure))
      refine .bind (modifyData_coupled (fun d d' h => ?_)) (fun _ =>
        (framed_twins K).getData (fun _ _ _ =>
          .ite .pure ((setState_coupled _).bind (fun _ => .pure))))
      cases h with
      | intro buffer request h =>
        exact .intro buffer.clear request (fun hp => ⟨(h hp).1.clear, (h hp).2⟩)

theorem processSendFile_coupled :
    Coupled (Twins K) (Twins K) (processSendFile ans l r) (processSendFile ans l r) :=
  (framed_twins K).getData (fun _ _ _ => ((framed_twins K).sendfile ans _ _ _).bind (fun _ =>
    .ite (.ite (countRetry_coupled.bind (fun _ => .pure)) .pure)
      (clearRetries_coupled.bind (fun _ =>
        .bind (modifyData_same (fun _ _ _ => rfl) (fun _ => ⟨rfl, rfl, rfl⟩)) (fun _ =>
          (framed_twins K).getData (fun _ _ _ => .ite .pure .pure))))))

theorem process_coupled (hk : ∀ exec, K l r exec) (e : Executor) (fd : Int) (events : Nat) :
    Coupled (Twins K) (Twins K) (process e ans l r fd events) (process e ans l r fd events) :=
  (framed_twins K).getData (fun _ _ _ =>
    .ite (processSendHeaders_coupled hk e) (.ite processSendFile_coupled .pure))

end FileExecutor

namespace SslFileExecutor

theorem countOperation_coupled (operationOk : Bool) :
    Coupled (Twins K) (Twins K) (countOperation l r operationOk) (countOperation l r operationOk) :=
  .ite clearRetries_coupled countRetry_coupled

theorem readFile_coupled (hk : ∀ exec, K l r exec) :
    Coupled (Twins K) (Twins K) (readFile ans l r) (readFile ans l r) := by
  refine getData_known hk (fun d buffer request hb _ => .ite ?_ ?_)
  · obtain ⟨window, c, c', heq, heq', hc, hwritable⟩ := hb.startWrite
    dsimp only
    rw [heq, heq']
    have hstart : Coupled (Holding K l r d.buffer buffer) (Holding K l r c c')
        (modifyData l r (fun d => { d with buffer := c }))
        (modifyData l r (fun d => { d with buffer := c' })) :=
      storeBuffer_coupled (fun _ _ _ => rfl) (fun _ _ => ⟨rfl, rfl, rfl⟩) hc
    refine hstart.bind (fun _ => ?_)
    cases window with
    | none => exact Coupled.pure.post (fun _ _ h => h.twins)
    | some w =>
      refine ((framed_holding K l r c c').read ans _ _).bindOf (fun _ => read_atMost)
        (fun received hlen => .ite (Coupled.pure.post (fun _ _ h => h.twins)) (.ite ?_ ?_))
      · exact ((closeFd_coupled l r _).bind (fun _ => .pure)).pre (fun _ _ h => h.twins)
      · exact .bind (storeBuffer_twins (fun _ _ _ => rfl) (fun _ hd => hd ▸ ⟨rfl, rfl, rfl⟩)
          (hc.filledAll (hwritable w rfl) hlen)) (fun _ => .pure)
  · exact Coupled.pure.post (fun _ _ h => h.twins)

theorem processSendFile_coupled (hk : ∀ exec, K l r exec) :
    Coupled (Twins K) (Twins K) (processSendFile ans l r) (processSendFile ans l r) := by
  refine (readFile_coupled hk).bind (fun file => ?_)
  cases file with
  | none => exact .pure
  | some operationOk =>
    refine getData_known hk (fun d buffer request hb _ => ?_)
    dsimp only
    rw [hb.startRead]
    cases hw : d.buffer.startRead with
    | none =>
      refine Coupled.pre ?_ (fun _ _ h => h.twins)
      exact .ite .pure ((countOperation_coupled _).bind (fun _ => .pure))
    | some w =>
      dsimp only
      rw [hb.slice hw]
      refine ((framed_holding K l r _ _).sslWrite ans _ _).bindOf (fun _ => sslWrite_atMost)
        (fun written hlen => .ite ?_ (Coupled.pre ?_ (fun _ _ h => h.twins)))
      · have hle : written.toNat ≤ w.size := by
          have hwindow := d.buffer.slice_length_le w
          omega
        exact .bind (storeBuffer_twins (fun _ _ _ => rfl) (fun _ hd => hd ▸ ⟨rfl, rfl, rfl⟩)
          (hb.endRead hw hle)) (fun _ => (framed_twins K).getData (fun _ _ _ =>
            .ite .pure ((countOperation_coupled true).bind (fun _ => .pure))))
      · cases ans.sslWriteError with
        | wantWrite => exact .pure
        | wantRead =>
          exact ((framed_twins K).editPollFd ans l r _ _).bind (fun _ =>
            .ite .pure ((countOperation_coupled operationOk).bind (fun _ => .pure)))
        | other => exact .pure

theorem process_coupled (hk : ∀ exec, K l r exec) (fd : Int) (events : Nat) :
    Coupled (Twins K) (Twins K) (process ans l r fd events) (process ans l r fd events) :=
  (framed_twins K).getData (fun _ _ _ =>
    .ite (processSendFile_coupled hk) (FileExecutor.process_coupled hk .sslFile fd events))

end SslFileExecutor

/-! ## Proxies -/

namespace ProxyExecutor

theorem countAndReturnOk_coupled :
    Coupled (Twins K) (Twins K) (countAndReturnOk l r) (countAndReturnOk l r) :=
  countRetry_coupled.bind (fun _ => .pure)

theorem watchUpstream_coupled (connected : Bool) :
    Coupled (Twins K) (Twins K) (watchUpstream ans l r connected)
      (watchUpstream ans l r connected) :=
  (framed_twins K).getData (fun _ _ _ => (addPollFd_coupled ans l r _ _).bind (fun _ =>
    .ite .pure ((removePollFd_coupled l r _).bind (fun _ =>
      .ite .pure ((setState_coupled _).bind (fun _ => .pure))))))

theorem up_coupled : Coupled (Twins K) (Twins K) (up ans l r) (up ans l r) := by
  refine .bind (modifyData_same (fun _ _ _ => rfl) (fun _ => ⟨rfl, rfl, rfl⟩)) (fun _ =>
    (framed_twins K).getData (fun d _ _ => ?_))
  dsimp only
  cases d.proxy with
  | none => exact .pure
  | some proxy =>
    refine .ite .pure (((framed_twins K).connect ans proxy).bind (fun x => ?_))
    exact .bind (modifyData_same (fun _ _ _ => rfl) (fun _ => ⟨rfl, rfl, rfl⟩)) (fun _ =>
      .ite .pure (watchUpstream_coupled x.2))

theorem addClient_coupled {next : Prog ProcessResult}
    (hnext : Coupled (Twins K) (Twins K) next next) :
    Coupled (Twins K) (Twins K) (addClient ans l r next) (addClient ans l r next) :=
  (framed_twins K).getData (fun _ _ _ =>
    .ite ((addPollFd_coupled ans l r _ _).bind (fun _ => .ite .pure hnext)) hnext)

theorem addUpstream_coupled {next : Prog ProcessResult}
    (hnext : Coupled (Twins K) (Twins K) next next) :
    Coupled (Twins K) (Twins K) (addUpstream ans l r next) (addUpstream ans l r next) :=
  (framed_twins K).getData (fun _ _ _ =>
    .ite ((addPollFd_coupled ans l r _ _).bind (fun _ => .ite .pure hnext)) hnext)

theorem removeClient_coupled {next : Prog ProcessResult}
    (hnext : Coupled (Twins K) (Twins K) next next) :
    Coupled (Twins K) (Twins K) (removeClient l r next) (removeClient l r next) :=
  (framed_twins K).getData (fun _ _ _ =>
    .ite ((removePollFd_coupled l r _).bind (fun _ => .ite .pure hnext)) hnext)

theorem removeUpstream_coupled {next : Prog ProcessResult}
    (hnext : Coupled (Twins K) (Twins K) next next) :
    Coupled (Twins K) (Twins K) (removeUpstream l r next) (removeUpstream l r next) :=
  (framed_twins K).getData (fun _ _ _ =>
    .ite ((removePollFd_coupled l r _).bind (fun _ => .ite .pure hnext)) hnext)

theorem watchResponse_coupled :
    Coupled (Twins K) (Twins K) (watchResponse ans l r) (watchResponse ans l r) :=
  (framed_twins K).getData (fun _ _ _ => ((framed_twins K).editPollFd ans l r _ _).bind (fun _ =>
    .ite .pure .pure))

theorem processForwardRequest_coupled (hk : ∀ exec, K l r exec) {finish : Prog ProcessResult}
    (hfinish : Coupled (Twins K) (Twins K) finish finish) :
    Coupled (Twins K) (Twins K) (processForwardRequest finish ans l r)
      (processForwardRequest finish ans l r) := by
  refine getData_known hk (fun d buffer request hb _ => ?_)
  dsimp only
  rw [hb.startRead]
  cases hw : d.buffer.startRead with
  | none => exact Coupled.pure.post (fun _ _ h => h.twins)
  | some w =>
    dsimp only
    rw [hb.slice hw]
    refine ((framed_holding K l r _ _).write ans _ _).bindOf (fun _ => write_atMost)
      (fun written hlen => .ite (Coupled.pre ?_ (fun _ _ h => h.twins)) ?_)
    · exact .ite (countRetry_coupled.bind (fun _ => .pure)) .pure
    · have hle : written.result.toNat ≤ w.size := by
        have hwindow := d.buffer.slice_length_le w
        omega
      refine (clearRetries_holding hb).bind (fun _ => .bind (storeBuffer_twins (fun _ _ _ => rfl)
        (fun _ hd => hd ▸ ⟨rfl, rfl, rfl⟩) (hb.endRead hw hle)) (fun _ => .ite ?_ .pure))
      refine .bind (modifyData_coupled (fun d d' h => ?_)) (fun _ => hfinish)
      cases h with
      | intro buffer request h =>
        exact .intro buffer.clear request (fun hp => ⟨(h hp).1.clear, (h hp).2⟩)

theorem processWaitConnect_coupled {forwardRequest : Prog ProcessResult}
    (hforward : Coupled (Twins K) (Twins K) forwardRequest forwardRequest) :
    Coupled (Twins K) (Twins K) (processWaitConnect forwardRequest ans l r)
      (processWaitConnect forwardRequest ans l r) :=
  .ite ((setState_coupled _).bind (fun _ => hforward))
    (.ite (countRetry_coupled.bind (fun _ => .pure)) .pure)

/-- All handlers do the same in both worlds. -/
theorem process_coupled {h : Handlers} (hall : ∀ m ∈ h.list, Coupled (Twins K) (Twins K) m m)
    (fd : Int) (events : Nat) :
    Coupled (Twins K) (Twins K) (process h l r fd events) (process h l r fd events) := by
  refine (framed_twins K).getData (fun _ _ _ => .ite (hall _ ?_) (.ite (hall _ ?_)
    (.ite (hall _ ?_) (.ite (hall _ ?_) .pure))))
  all_goals simp [Handlers.list]

end ProxyExecutor

namespace ProxyExecutorReadWrite

open ProxyExecutor

theorem processForwardRequest_coupled (hk : ∀ exec, K l r exec) :
    Coupled (Twins K) (Twins K) (processForwardRequest ans l r) (processForwardRequest ans l r) :=
  ProxyExecutor.processForwardRequest_coupled hk watchResponse_coupled

theorem afterWrite_coupled (hk : ∀ exec, K l r exec) :
    Coupled (Twins K) (Twins K) (afterWrite ans l r) (afterWrite ans l r) := by
  refine getData_known hk (fun d buffer request hb _ => ?_)
  dsimp only
  rw [hb.readAvailable]
  exact Coupled.pre (.ite .pure (.ite (addUpstream_coupled .pure) .pure)) (fun _ _ h => h.twins)

theorem processForwardResponseWrite_coupled (hk : ∀ exec, K l r exec) (e : Executor) :
    Coupled (Twins K) (Twins K) (processForwardResponseWrite e ans l r)
      (processForwardResponseWrite e ans l r) := by
  refine getData_known hk (fun d buffer request hb _ => ?_)
  dsimp only
  rw [hb.startRead]
  cases hw : d.buffer.startRead with
  | none =>
    exact Coupled.pre (.ite .pure (removeClient_coupled countAndReturnOk_coupled))
      (fun _ _ h => h.twins)
  | some w =>
    dsimp only
    rw [hb.slice hw]
    refine ((framed_holding K l r _ _).writeFd0 e ans l r _).bindOf (fun _ => writeFd0_atMost e)
      (fun written hlen => .ite (Coupled.pre ?_ (fun _ _ h => h.twins)) ?_)
    · exact .ite (addClient_coupled countAndReturnOk_coupled) .pure
    · have hle : written.result.toNat ≤ w.size := by
        have hwindow := d.buffer.slice_length_le w
        omega
      exact (clearRetries_holding hb).bind (fun _ => .bind (storeBuffer_twins (fun _ _ _ => rfl)
        (fun _ hd => hd ▸ ⟨rfl, rfl, rfl⟩) (hb.endRead hw hle)) (fun _ => afterWrite_coupled hk))

theorem processForwardResponseRead_coupled (hk : ∀ exec, K l r exec) (e : Executor) :
    Coupled (Twins K) (Twins K) (processForwardResponseRead e ans l r)
      (processForwardResponseRead e ans l r) := by
  refine getData_known hk (fun d buffer request hb _ => ?_)
  obtain ⟨window, c, c', heq, heq', hc, hwritable⟩ := hb.startWrite
  dsimp only
  rw [heq, heq']
  have hstart : Coupled (Holding K l r d.buffer buffer) (Holding K l r c c')
      (modifyData l r (fun d => { d with buffer := c }))
      (modifyData l r (fun d => { d with buffer := c' })) :=
    storeBuffer_coupled (fun _ _ _ => rfl) (fun _ _ => ⟨rfl, rfl, rfl⟩) hc
  refine hstart.bind (fun _ => ?_)
  cases window with
  | none =>
    exact Coupled.pre (removeUpstream_coupled (addClient_coupled countAndReturnOk_coupled))
      (fun _ _ h => h.twins)
  | some w =>
    refine ((framed_holding K l r c c').read ans _ _).bindOf (fun _ => read_atMost)
      (fun received hlen => .ite (Coupled.pre ?_ (fun _ _ h => h.twins)) ?_)
    · exact .ite ((closeFd_coupled l r _).bind (fun _ => (setState_coupled _).bind (fun _ =>
        processForwardResponseWrite_coupled hk e))) (.ite countAndReturnOk_coupled .pure)
    · exact (clearRetries_holding hc).bind (fun _ => .bind (storeBuffer_twins (fun _ _ _ => rfl)
        (fun _ hd => hd ▸ ⟨rfl, rfl, rfl⟩) (hc.filledAll (hwritable w rfl) hlen)) (fun _ =>
          processForwardResponseWrite_coupled hk e))

theorem process_coupled (hk : ∀ exec, K l r exec) (e : Executor) (fd : Int) (events : Nat) :
    Coupled (Twins K) (Twins K) (process e ans l r fd events) (process e ans l r fd events) := by
  refine ProxyExecutor.process_coupled (fun m hm => ?_) fd events
  simp only [handlers, Handlers.list, List.mem_cons, List.not_mem_nil, or_false] at hm
  rcases hm with rfl | rfl | rfl | rfl
  · exact processWaitConnect_coupled (processForwardRequest_coupled hk)
  · exact processForwardRequest_coupled hk
  · exact processForwardResponseRead_coupled hk e
  · exact processForwardResponseWrite_coupled hk e

end ProxyExecutorReadWrite

namespace ProxyExecutorSplice

open ProxyExecutor

theorem openPipe_coupled : Coupled (Twins K) (Twins K) (openPipe ans l r) (openPipe ans l r) := by
  unfold openPipe
  cases ans.pipe2 with
  | none => exact .pure
  | some ends =>
    exact .ite .pure (((framed_twins K).newDescriptor _ _).bind (fun _ =>
      ((framed_twins K).newDescriptor _ _).bind (fun _ =>
        ((framed_twins K).modifyKernel _).bind (fun _ =>
          .bind (modifyData_same (fun _ _ _ => rfl) (fun _ => ⟨rfl, rfl, rfl⟩)) (fun _ => .pure)))))

theorem startResponse_coupled :
    Coupled (Twins K) (Twins K) (startResponse ans l r) (startResponse ans l r) :=
  (framed_twins K).getData (fun _ _ _ => ((framed_twins K).editPollFd ans l r _ _).bind (fun _ =>
    .ite .pure (openPipe_coupled.bind (fun _ => .ite .pure .pure))))

theorem processForwardRequest_coupled (hk : ∀ exec, K l r exec) :
    Coupled (Twins K) (Twins K) (processForwardRequest ans l r) (processForwardRequest ans l r) :=
  ProxyExecutor.processForwardRequest_coupled hk startResponse_coupled

theorem afterWrite_coupled :
    Coupled (Twins K) (Twins K) (afterWrite ans l r) (afterWrite ans l r) :=
  (framed_twins K).getData (fun _ _ _ => .ite .pure (.ite .pure
    (.ite (addClient_coupled countAndReturnOk_coupled)
      (removeClient_coupled (addUpstream_coupled countAndReturnOk_coupled)))))

theorem processForwardResponseWrite_coupled :
    Coupled (Twins K) (Twins K) (processForwardResponseWrite ans l r)
      (processForwardResponseWrite ans l r) := by
  refine (framed_twins K).getData (fun _ _ _ => .ite ?_ (.ite .pure countAndReturnOk_coupled))
  refine ((framed_twins K).spliceOut ans _ _ _).bind (fun written =>
    .ite countAndReturnOk_coupled (.ite ?_ ?_))
  · exact .ite (countRetry_coupled.bind (fun _ => addClient_coupled .pure)) .pure
  · exact .bind (modifyData_same (fun _ _ _ => rfl) (fun _ => ⟨rfl, rfl, rfl⟩)) (fun _ =>
      afterWrite_coupled)

theorem processForwardResponseRead_coupled :
    Coupled (Twins K) (Twins K) (processForwardResponseRead ans l r)
      (processForwardResponseRead ans l r) := by
  refine (framed_twins K).getData (fun _ _ _ => ((framed_twins K).spliceIn ans _ _ _).bind
    (fun received => .ite ?_ (.ite ?_ ?_)))
  · exact (closeFd_coupled l r _).bind (fun _ => (setState_coupled _).bind (fun _ =>
      processForwardResponseWrite_coupled))
  · exact .ite (countRetry_coupled.bind (fun _ => .ite (removeUpstream_coupled .pure) .pure)) .pure
  · exact .bind (modifyData_same (fun _ _ _ => rfl) (fun _ => ⟨rfl, rfl, rfl⟩)) (fun _ =>
      processForwardResponseWrite_coupled)

theorem process_coupled (hk : ∀ exec, K l r exec) (fd : Int) (events : Nat) :
    Coupled (Twins K) (Twins K) (process ans l r fd events) (process ans l r fd events) := by
  refine ProxyExecutor.process_coupled (fun m hm => ?_) fd events
  simp only [handlers, Handlers.list, List.mem_cons, List.not_mem_nil, or_false] at hm
  rcases hm with rfl | rfl | rfl | rfl
  · exact processWaitConnect_coupled (processForwardRequest_coupled hk)
  · exact processForwardRequest_coupled hk
  · exact processForwardResponseRead_coupled
  · exact processForwardResponseWrite_coupled

end ProxyExecutorSplice

/-! ## Requests -/

namespace RequestExecutor

theorem readRequest_coupled (hk : ∀ exec, K l r exec) (e : Executor) :
    Coupled (Twins K) (Twins K) (readRequest e ans l r) (readRequest e ans l r) := by
  refine getData_known hk (fun d buffer request hb _ => ?_)
  obtain ⟨window, c, c', heq, heq', hc, hwritable⟩ := hb.startWrite
  dsimp only
  rw [heq, heq']
  have hstart : Coupled (Holding K l r d.buffer buffer) (Holding K l r c c')
      (modifyData l r (fun d => { d with buffer := c }))
      (modifyData l r (fun d => { d with buffer := c' })) :=
    storeBuffer_coupled (fun _ _ _ => rfl) (fun _ _ => ⟨rfl, rfl, rfl⟩) hc
  refine hstart.bind (fun _ => ?_)
  cases window with
  | none => exact Coupled.pure.post (fun _ _ h => h.twins)
  | some w =>
    refine ((framed_holding K l r c c').readFd0 e ans l r _).bindOf (fun _ => readFd0_atMost e)
      (fun received hlen => .ite (Coupled.pre ?_ (fun _ _ h => h.twins)) ?_)
    · exact .ite .pure (countRetry_coupled.bind (fun _ => .pure))
    · exact .bind (storeBuffer_twins (fun _ _ _ => rfl) (fun _ hd => hd ▸ ⟨rfl, rfl, rfl⟩)
        (hc.filledAll (hwritable w rfl) hlen)) (fun _ => clearRetries_coupled.bind (fun _ => .pure))

theorem findProxy_alike {request request' : HttpRequest} (h : request.Alike request')
    (proxies : List ProxyParameters) : findProxy proxies request' = findProxy proxies request := by
  have hfits : (fun proxy : ProxyParameters => request'.isUrlPrefix proxy.urlPrefix) =
      fun proxy => request.isUrlPrefix proxy.urlPrefix :=
    funext (fun proxy => h.isUrlPrefix proxy.urlPrefix)
  unfold findProxy
  rw [hfits]

theorem appendFileName_coupled (name : Bytes) :
    Coupled (Twins K) (Twins K) (appendFileName l name) (appendFileName l name) :=
  modifyLoop_same (fun _ _ => rfl) (fun _ => rfl)

theorem nameFile_coupled (url : Bytes) :
    Coupled (Twins K) (Twins K) (nameFile l url) (nameFile l url) := by
  refine .bind (modifyLoop_same (fun _ _ => rfl) (fun _ => rfl)) (fun _ =>
    .ite ((appendFileName_coupled _).bind (fun _ => .pure)) (getLoop_coupled (fun x y h => ?_)))
  cases h with
  | intro execDatas h => exact .ite ((appendFileName_coupled _).bind (fun _ => .pure)) .pure

theorem dispatchRequest_coupled {request request' : HttpRequest} (h : request.Alike request') :
    Coupled (Twins K) (Twins K) (dispatchRequest l r request) (dispatchRequest l r request') := by
  refine (framed_twins K).getData (fun d _ _ => .read (fun w w' hw => ?_))
  dsimp only
  rw [hw.parameters, findProxy_alike h, h.getUrl]
  cases findProxy w.parameters.proxies request with
  | some proxy =>
    exact .ite .pure (.bind (modifyData_same (fun _ _ _ => rfl) (fun _ => ⟨rfl, rfl, rfl⟩))
      (fun _ => .pure))
  | none =>
    dsimp only
    cases request.getUrl with
    | none => exact .pure
    | some url => exact nameFile_coupled url

/-- The part of `parseRequest` that ends with the verdict. -/
def parsed (l r : Nat) : Prog (Option (ParseResult × HttpRequest)) := do
  let data ← getData l r
  match data.buffer.startRead with
  | none => return none
  | some w =>
    match data.request.parse (data.buffer.slice w.start (w.start + w.size)) with
    | none => fail
    | some x => return some x

/-- The rest of `parseRequest` depends on the verdict. -/
theorem parseRequest_eq (l r : Nat) : parseRequest l r = (do
    let x ← parsed l r
    match x with
    | none => return .again
    | some (result, request) => do
      modifyData l r (fun d => { d with request := request })
      match result with
      | .finishOk => dispatchRequest l r request
      | .needMoreData => return .again
      | .finishInvalid => return .invalid) := by
  unfold parseRequest parsed
  rw [bind_assoc]
  refine congrArg (getData l r >>= ·) (funext (fun data => ?_))
  cases data.buffer.startRead with
  | none => rfl
  | some w =>
    dsimp only
    cases data.request.parse (data.buffer.slice w.start (w.start + w.size)) with
    | none => rfl
    | some x => rfl

/-- The verdict is the same, and the requests that it leaves are alike. -/
theorem parsed_coupled {R : World → World → Prop} {α : Type} (hk : ∀ exec, K l r exec)
    {f f' : Option (ParseResult × HttpRequest) → Prog α}
    (hnone : Coupled (Twins K) R (f none) (f' none))
    (hsome : ∀ result q q', q.Alike q' →
      Coupled (Twins K) R (f (some (result, q))) (f' (some (result, q')))) :
    Coupled (Twins K) R (parsed l r >>= f) (parsed l r >>= f') := by
  unfold parsed
  rw [bind_assoc, bind_assoc]
  refine getData_known hk (fun d buffer request hb hq => Coupled.pre ?_ (fun _ _ h => h.twins))
  dsimp only
  rw [hb.startRead]
  cases hw : d.buffer.startRead with
  | none => exact hnone
  | some w =>
    dsimp only
    rw [hb.slice hw]
    have hparse := hq.parse (d.buffer.slice w.start (w.start + w.size))
    revert hparse
    generalize d.request.parse (d.buffer.slice w.start (w.start + w.size)) = x
    generalize request.parse (d.buffer.slice w.start (w.start + w.size)) = x'
    intro hparse
    cases hparse with
    | failed => exact .fail
    | returned result q q' h => exact hsome result q q' h

theorem parseRequest_coupled (hk : ∀ exec, K l r exec) :
    Coupled (Twins K) (Twins K) (parseRequest l r) (parseRequest l r) := by
  rw [parseRequest_eq]
  refine parsed_coupled hk .pure (fun result q q' hq => ?_)
  refine .bind (modifyData_coupled (fun d d' h => ?_)) (fun _ => ?_)
  · cases h with
    | intro buffer request h => exact .intro buffer q' (fun hp => ⟨(h hp).1, hq⟩)
  · cases result with
    | finishOk => exact dispatchRequest_coupled hq
    | needMoreData => exact .pure
    | finishInvalid => exact .pure

theorem upAnswering_coupled (hk : ∀ exec, K l r exec) (e : Executor) :
    Coupled (Twins K) (Twins K) (upAnswering e ans l r) (upAnswering e ans l r) := by
  cases e with
  | file => exact FileExecutor.up_coupled hk
  | sslFile => exact FileExecutor.up_coupled hk
  | proxySplice => exact ProxyExecutor.up_coupled
  | proxyReadWrite => exact ProxyExecutor.up_coupled
  | sslProxy => exact ProxyExecutor.up_coupled
  | _ => exact .fail

theorem setExecutor_coupled (hk : ∀ exec, K l r exec) (e : Executor) :
    Coupled (Twins K) (Twins K) (setExecutor e ans l r) (setExecutor e ans l r) := by
  refine .bind (modifyData_coupled (fun d d' h => ?_)) (fun _ =>
    (upAnswering_coupled hk e).bind (fun _ => .ite .pure .pure))
  cases h with
  | intro buffer request h => exact .intro buffer request (fun _ => h (hk _))

theorem processReadRequest_coupled (hk : ∀ exec, K l r exec) (e : Executor)
    (fileType proxyType : ExecutorType) :
    Coupled (Twins K) (Twins K) (processReadRequest e fileType proxyType ans l r)
      (processReadRequest e fileType proxyType ans l r) := by
  refine (readRequest_coupled hk e).bind (fun _ => .ite .pure
    ((parseRequest_coupled hk).bind (fun result => ?_)))
  cases result with
  | file => exact setExecutor_coupled hk _
  | proxy => exact setExecutor_coupled hk _
  | invalid => exact .pure
  | again => exact .pure

theorem process_coupled (hk : ∀ exec, K l r exec) (fd : Int) (events : Nat) :
    Coupled (Twins K) (Twins K) (process ans l r fd events) (process ans l r fd events) :=
  (framed_twins K).getData (fun _ _ _ => .ite (processReadRequest_coupled hk _ _ _) .pure)

/-- Whatever the data held is set up anew. -/
theorem prepare_coupled (connectionType : Nat) :
    Coupled (Twins (K.minus l r)) (Twins (K.plus l r)) (prepare l r connectionType)
      (prepare l r connectionType) := by
  refine .assign (fun w w' h => h.setData ?_ (fun l' r' exec hne hplus =>
    ⟨hne, hplus.resolve_left hne⟩))
  have hdata := h.data l r
  have hpos : 0 < (List.replicate ExecutorData.REQUEST_BUFFER_SIZE (0 : UInt8)).length := by
    rw [List.length_replicate]
    decide
  generalize w'.data l r = d at hdata
  cases hdata with
  | intro buffer request _ =>
    exact .intro _ request.reset (fun _ => ⟨.init _ buffer hpos, .reset _ _⟩)

theorem up_coupled :
    Coupled (Twins (K.minus l r)) (Twins (K.plus l r)) (up ans l r) (up ans l r) :=
  (prepare_coupled _).bind (fun _ => (framed_twins _).getData (fun _ _ _ =>
    (addPollFd_coupled ans l r _ _).bind (fun _ =>
      .ite .pure ((setState_coupled _).bind (fun _ => .pure)))))

end RequestExecutor

namespace SslRequestExecutor

theorem handleHandshake_coupled (firstTime : Bool) :
    Coupled (Twins K) (Twins K) (handleHandshake ans l r firstTime)
      (handleHandshake ans l r firstTime) := by
  have hwatch : ∀ events, Coupled (Twins K) (Twins K) (watchHandshake ans l r firstTime events)
      (watchHandshake ans l r firstTime events) := fun events =>
    (framed_twins K).getData (fun _ _ _ => .ite
      ((addPollFd_coupled ans l r _ _).bind (fun _ => .pure))
      (((framed_twins K).editPollFd ans l r _ _).bind (fun _ => .pure)))
  unfold handleHandshake
  cases ans.sslDoHandshake with
  | none => exact .pure
  | some error =>
    cases error with
    | wantWrite => exact hwatch _
    | wantRead => exact hwatch _
    | other => exact .pure

theorem upHandshake_coupled :
    Coupled (Twins K) (Twins K) (upHandshake ans l r) (upHandshake ans l r) := by
  refine (handleHandshake_coupled true).bind (fun result => ?_)
  cases result with
  | ok =>
    exact (framed_twins K).getData (fun _ _ _ => (addPollFd_coupled ans l r _ _).bind (fun _ =>
      .ite .pure ((setState_coupled _).bind (fun _ => .pure))))
  | again => exact (setState_coupled _).bind (fun _ => .pure)
  | error => exact .pure

theorem sslInit_coupled : Coupled (Twins K) (Twins K) (sslInit ans l r) (sslInit ans l r) :=
  .ite (.bind (modifyData_same (fun _ _ _ => rfl) (fun _ => ⟨rfl, rfl, rfl⟩)) (fun _ => .pure))
    .pure

theorem up_coupled :
    Coupled (Twins (K.minus l r)) (Twins (K.plus l r)) (up ans l r) (up ans l r) :=
  (RequestExecutor.prepare_coupled _).bind (fun _ => sslInit_coupled.bind (fun _ =>
    .ite .pure upHandshake_coupled))

theorem processHandshake_coupled :
    Coupled (Twins K) (Twins K) (processHandshake ans l r) (processHandshake ans l r) := by
  refine (handleHandshake_coupled false).bind (fun result => ?_)
  cases result with
  | ok =>
    exact (framed_twins K).getData (fun _ _ _ => ((framed_twins K).editPollFd ans l r _ _).bind
      (fun _ => .ite .pure ((setState_coupled _).bind (fun _ => .pure))))
  | again => exact countRetry_coupled.bind (fun _ => .pure)
  | error => exact .pure

theorem process_coupled (hk : ∀ exec, K l r exec) (fd : Int) (events : Nat) :
    Coupled (Twins K) (Twins K) (process ans l r fd events) (process ans l r fd events) :=
  (framed_twins K).getData (fun _ _ _ => .ite processHandshake_coupled
    (.ite (RequestExecutor.processReadRequest_coupled hk _ _ _) .pure))

end SslRequestExecutor

end

end EpollHttp
