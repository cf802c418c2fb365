import EpollHttp.Recycling.Twins

/-
The calls of the kernel and those on the epoll set, made in twin worlds.

What a call of the kernel does follows from the kernel and from the descriptors of the executor,
so it keeps whatever else is known of the two worlds.
-/

namespace EpollHttp

open Program

/-! ## The kernel -/

/-- Two worlds have the same kernel and the same descriptors, and a change of the kernel keeps
what is known of them. -/
structure Framed (R : World → World → Prop) : Prop where
  kernel : ∀ w w', R w w' → w'.kernel = w.kernel
  data : ∀ w w', R w w' → ∀ l r, (w.data l r).Alike False (w'.data l r)
  setKernel : ∀ w w', R w w' → ∀ k, R (w.setKernel k) (w'.setKernel k)

theorem framed_twins (K : Scope) : Framed (Twins K) :=
  ⟨fun _ _ h => h.kernel, fun _ _ h l r => (h.data l r).mono False.elim,
    fun _ _ h k => h.setKernel k⟩

section
variable {R R' : World → World → Prop} {l r : Nat} {α : Type} {ans : Answers} {fd : Int}

theorem Framed.getKernel (hR : Framed R) {f f' : Kernel → Prog α}
    (hf : ∀ k, Coupled R R' (f k) (f' k)) :
    Coupled R R' (getKernel >>= f) (getKernel >>= f') := by
  intro w w' h
  show Matched R' (f w.kernel w) (f' w'.kernel w')
  rw [hR.kernel w w' h]
  exact hf w.kernel w w' h

theorem Framed.modifyKernel (hR : Framed R) (f : Kernel → Kernel) :
    Coupled R R (modifyKernel f) (modifyKernel f) := by
  refine .assign (fun w w' h => ?_)
  rw [hR.kernel w w' h]
  exact hR.setKernel w w' h _

theorem Framed.getData (hR : Framed R) {f f' : ExecutorData → Prog α}
    (hf : ∀ d buffer request,
      Coupled R R' (f d) (f' { d with buffer := buffer, request := request })) :
    Coupled R R' (getData l r >>= f) (getData l r >>= f') := by
  intro w w' h
  have hdata := hR.data w w' h l r
  show Matched R' (f (w.data l r) w) (f' (w'.data l r) w')
  generalize w'.data l r = d at hdata
  cases hdata with
  | intro buffer request _ => exact hf _ buffer request w w' h

theorem Framed.close (hR : Framed R) (fd : Int) : Coupled R R (close fd) (close fd) :=
  hR.modifyKernel _

theorem Framed.newDescriptor (hR : Framed R) (fd : Int) (accepted : Bool) :
    Coupled R R (newDescriptor fd accepted) (newDescriptor fd accepted) :=
  hR.getKernel (fun _ => .ite .pure (.ite ((hR.modifyKernel _).bind (fun _ => .pure)) .fail))

theorem Framed.receive (hR : Framed R) (id count : Nat) (answer : ReadAnswer) :
    Coupled R R (receive id count answer) (receive id count answer) := by
  unfold EpollHttp.receive
  cases answer.bytes with
  | none => exact .pure
  | some bytes => exact (hR.modifyKernel _).bind (fun _ => .pure)

theorem Framed.read (hR : Framed R) (ans : Answers) (fd : Int) (count : Nat) :
    Coupled R R (read ans fd count) (read ans fd count) := by
  refine hR.getKernel (fun k => ?_)
  cases k.openId? fd with
  | none => exact .pure
  | some id => exact hR.receive id count ans.read

theorem Framed.sendSome (hR : Framed R) (id : Nat) (bytes : Bytes) (count : Int) :
    Coupled R R (sendSome id bytes count) (sendSome id bytes count) := hR.modifyKernel _

theorem Framed.write (hR : Framed R) (ans : Answers) (fd : Int) (bytes : Bytes) :
    Coupled R R (write ans fd bytes) (write ans fd bytes) := by
  refine hR.getKernel (fun k => ?_)
  cases k.openId? fd with
  | none => exact .pure
  | some id => exact (hR.sendSome id bytes _).bind (fun _ => .pure)

theorem Framed.sendfile (hR : Framed R) (ans : Answers) (outFd inFd count : Int) :
    Coupled R R (sendfile ans outFd inFd count) (sendfile ans outFd inFd count) := by
  refine hR.getKernel (fun k => ?_)
  cases k.openId? outFd with
  | none => exact .pure
  | some outId =>
    cases k.openId? inFd with
    | none => exact .pure
    | some inId =>
      exact (hR.receive inId _ _).bind (fun received =>
        (hR.sendSome outId _ _).bind (fun _ => .pure))

theorem Framed.spliceIn (hR : Framed R) (ans : Answers) (fd pipeWriteFd : Int) (count : Nat) :
    Coupled R R (spliceIn ans fd pipeWriteFd count) (spliceIn ans fd pipeWriteFd count) := by
  refine hR.getKernel (fun k => ?_)
  cases k.openId? fd with
  | none => exact .pure
  | some id =>
    cases k.openId? pipeWriteFd with
    | none => exact .pure
    | some pipeId =>
      exact (hR.receive id count _).bind (fun received =>
        (hR.modifyKernel _).bind (fun _ => .pure))

theorem Framed.spliceOut (hR : Framed R) (ans : Answers) (pipeReadFd fd : Int) (count : Nat) :
    Coupled R R (spliceOut ans pipeReadFd fd count) (spliceOut ans pipeReadFd fd count) := by
  refine hR.getKernel (fun k => ?_)
  cases k.openId? pipeReadFd with
  | none => exact .pure
  | some pipeId =>
    cases k.openId? fd with
    | none => exact .pure
    | some id =>
      exact (hR.sendSome id _ _).bind (fun _ => (hR.modifyKernel _).bind (fun _ => .pure))

theorem Framed.sslRead (hR : Framed R) (ans : Answers) (fd : Int) (count : Nat) :
    Coupled R R (sslRead ans fd count) (sslRead ans fd count) := by
  refine hR.getKernel (fun k => ?_)
  cases k.openId? fd with
  | none => exact .pure
  | some id =>
    cases ans.sslRead.take count with
    | nil => exact .pure
    | cons c rest => exact (hR.modifyKernel _).bind (fun _ => .pure)

theorem Framed.sslWrite (hR : Framed R) (ans : Answers) (fd : Int) (bytes : Bytes) :
    Coupled R R (sslWrite ans fd bytes) (sslWrite ans fd bytes) := by
  refine hR.getKernel (fun k => ?_)
  cases k.openId? fd with
  | none => exact .pure
  | some id => exact (hR.sendSome id bytes _).bind (fun _ => .pure)

theorem Framed.socketConnectNonBlock (hR : Framed R) (ans : Answers) :
    Coupled R R (socketConnectNonBlock ans) (socketConnectNonBlock ans) := by
  refine (hR.newDescriptor _ _).bind (fun sock => .ite .pure ?_)
  cases ans.connect with
  | none => exact .pure
  | some errno => exact .ite ((hR.close sock).bind (fun _ => .pure)) .pure

theorem Framed.connect (hR : Framed R) (ans : Answers) (proxy : ProxyParameters) :
    Coupled R R (ProxyExecutor.connect ans proxy) (ProxyExecutor.connect ans proxy) := by
  unfold ProxyExecutor.connect
  cases proxy.socketType with
  | tcp => exact hR.socketConnectNonBlock ans
  | unix => exact .ite (hR.socketConnectNonBlock ans) .pure
  | none => exact .pure

theorem Framed.socketListen (hR : Framed R) (ans : Answers) :
    Coupled R R (socketListen ans) (socketListen ans) :=
  (hR.newDescriptor _ _).bind (fun sockfd =>
    .ite .pure (.ite .pure ((hR.close sockfd).bind (fun _ => .pure))))

/-! ## The client -/

theorem pollDataOf_bytes (d : ExecutorData) (buffer : TransferRingBuffer) (request : HttpRequest) :
    ({ d with buffer := buffer, request := request } : ExecutorData).pollDataOf = d.pollDataOf :=
  rfl

theorem Framed.editPollFd (hR : Framed R) (ans : Answers) (l r : Nat) (fd : Int) (events : Nat) :
    Coupled R R (editPollFd ans l r fd events) (editPollFd ans l r fd events) := by
  refine hR.getData (fun d buffer request => ?_)
  rw [pollDataOf_bytes d buffer request]
  cases d.pollDataOf fd with
  | none => exact .pure
  | some p =>
    refine hR.getKernel (fun k => ?_)
    cases (if ans.epollMod then k.ctlMod l fd p (watched events) else none) with
    | none => exact .pure
    | some k => exact (hR.modifyKernel _).bind (fun _ => .pure)

theorem Framed.sslWriteFd0 (hR : Framed R) (ans : Answers) (l r : Nat) (bytes : Bytes) :
    Coupled R R (sslWriteFd0 ans l r bytes) (sslWriteFd0 ans l r bytes) := by
  refine hR.getData (fun d buffer request => (hR.sslWrite ans _ bytes).bind (fun result =>
    .ite .pure ?_))
  cases ans.sslWriteError with
  | wantWrite => exact .pure
  | wantRead => exact (hR.editPollFd ans l r _ _).bind (fun edited => .ite .pure .pure)
  | other => exact .pure

theorem Framed.sslReadFd0 (hR : Framed R) (ans : Answers) (l r count : Nat) :
    Coupled R R (sslReadFd0 ans l r count) (sslReadFd0 ans l r count) := by
  refine hR.getData (fun d buffer request => (hR.sslRead ans _ count).bind (fun bytes =>
    .ite .pure ?_))
  cases ans.sslReadError with
  | wantRead => exact .pure
  | wantWrite => exact (hR.editPollFd ans l r _ _).bind (fun edited => .ite .pure .pure)
  | other => exact .pure

theorem Framed.readFd0 (hR : Framed R) (e : Executor) (ans : Answers) (l r count : Nat) :
    Coupled R R (e.readFd0 ans l r count) (e.readFd0 ans l r count) := by
  have hplain : Coupled R R (Executor.plainReadFd0 ans l r count)
      (Executor.plainReadFd0 ans l r count) :=
    hR.getData (fun d buffer request => (hR.read ans _ count).bind (fun _ => .pure))
  cases e with
  | sslRequest => exact hR.sslReadFd0 ans l r count
  | _ => exact hplain

theorem Framed.writeFd0 (hR : Framed R) (e : Executor) (ans : Answers) (l r : Nat) (bytes : Bytes) :
    Coupled R R (e.writeFd0 ans l r bytes) (e.writeFd0 ans l r bytes) := by
  have hplain : Coupled R R (Executor.plainWriteFd0 ans l r bytes)
      (Executor.plainWriteFd0 ans l r bytes) :=
    hR.getData (fun d buffer request => (hR.write ans _ bytes).bind (fun _ => .pure))
  cases e with
  | sslFile => exact hR.sslWriteFd0 ans l r bytes
  | sslProxy => exact hR.sslWriteFd0 ans l r bytes
  | _ => exact hplain

end

/-! ## How much a call moves -/

section
variable {ans : Answers} {w : World} {l r : Nat} {fd : Int} {bytes : Bytes} {count : Nat}

theorem write_atMost :
    Ensures (write ans fd bytes) w (fun written _ => written.result ≤ bytes.length) := by
  simp only [write, ensures_bind, ensures_getKernel]
  cases w.kernel.openId? fd with
  | none =>
    rw [ensures_pure]
    show (-1 : Int) ≤ bytes.length
    omega
  | some id =>
    simp only [sendSome, ensures_bind, ensures_modifyKernel, ensures_pure]
    omega

theorem sslWrite_atMost :
    Ensures (sslWrite ans fd bytes) w (fun result _ => result ≤ bytes.length) := by
  simp only [sslWrite, ensures_bind, ensures_getKernel]
  cases w.kernel.openId? fd with
  | none =>
    rw [ensures_pure]
    omega
  | some id =>
    simp only [sendSome, ensures_bind, ensures_modifyKernel, ensures_pure]
    omega

theorem writeFd0_atMost (e : Executor) :
    Ensures (e.writeFd0 ans l r bytes) w (fun written _ => written.result ≤ bytes.length) := by
  have hplain : Ensures (Executor.plainWriteFd0 ans l r bytes) w
      (fun written _ => written.result ≤ bytes.length) := by
    simp only [Executor.plainWriteFd0, ensures_bind, ensures_getData, ensures_pure]
    exact write_atMost
  have hssl : Ensures (sslWriteFd0 ans l r bytes) w
      (fun written _ => written.result ≤ bytes.length) := by
    simp only [sslWriteFd0, ensures_bind, ensures_getData, ensures_ite, ensures_pure]
    refine sslWrite_atMost.mono (fun result w1 h => ⟨fun _ => h, fun _ => ?_⟩)
    cases ans.sslWriteError with
    | wantWrite => exact ensures_pure.mpr h
    | wantRead =>
      refine ensures_bind.mpr (fun edited w2 _ => ensures_ite.mpr ⟨fun _ => ?_, fun _ => ?_⟩)
      · exact ensures_pure.mpr h
      · exact ensures_pure.mpr h
    | other => exact ensures_pure.mpr h
  cases e with
  | sslFile => exact hssl
  | sslProxy => exact hssl
  | _ => exact hplain

theorem read_atMost :
    Ensures (read ans fd count) w (fun received _ => received.bytes.length ≤ count) := by
  simp only [read, ensures_bind, ensures_getKernel]
  cases w.kernel.openId? fd with
  | none => exact ensures_pure.mpr (Nat.zero_le _)
  | some id =>
    unfold receive
    dsimp only
    cases ans.read.bytes with
    | none => exact ensures_pure.mpr (Nat.zero_le _)
    | some bytes =>
      simp only [ensures_bind, ensures_modifyKernel, ensures_pure]
      exact List.length_take_le count bytes

theorem sslRead_atMost :
    Ensures (sslRead ans fd count) w (fun bytes _ => bytes.length ≤ count) := by
  simp only [sslRead, ensures_bind, ensures_getKernel]
  cases w.kernel.openId? fd with
  | none => exact ensures_pure.mpr (Nat.zero_le _)
  | some id =>
    cases hcame : ans.sslRead.take count with
    | nil => exact ensures_pure.mpr (Nat.zero_le _)
    | cons c rest =>
      simp only [ensures_bind, ensures_modifyKernel, ensures_pure]
      rw [← hcame]
      exact List.length_take_le count _

theorem readFd0_atMost (e : Executor) :
    Ensures (e.readFd0 ans l r count) w (fun received _ => received.bytes.length ≤ count) := by
  have hplain : Ensures (Executor.plainReadFd0 ans l r count) w
      (fun received _ => received.bytes.length ≤ count) := by
    simp only [Executor.plainReadFd0, ensures_bind, ensures_getData, ensures_pure]
    exact read_atMost
  have hssl : Ensures (sslReadFd0 ans l r count) w
      (fun received _ => received.bytes.length ≤ count) := by
    simp only [sslReadFd0, ensures_bind, ensures_getData, ensures_ite, ensures_pure]
    refine sslRead_atMost.mono (fun bytes w1 h => ⟨fun _ => h, fun _ => ?_⟩)
    cases ans.sslReadError with
    | wantRead => exact ensures_pure.mpr (Nat.zero_le _)
    | wantWrite =>
      refine ensures_bind.mpr (fun edited w2 _ => ensures_ite.mpr ⟨fun _ => ?_, fun _ => ?_⟩)
      · exact ensures_pure.mpr (Nat.zero_le _)
      · exact ensures_pure.mpr (Nat.zero_le _)
    | other => exact ensures_pure.mpr (Nat.zero_le _)
  cases e with
  | sslRequest => exact hssl
  | _ => exact hplain

end

/-! ## A buffer in hand -/

/-- The worlds are twins, and the buffers of the executor are known. -/
structure Holding (K : Scope) (l r : Nat) (b b' : TransferRingBuffer) (w w' : World) : Prop where
  twins : Twins K w w'
  left : (w.data l r).buffer = b
  right : (w'.data l r).buffer = b'

theorem framed_holding (K : Scope) (l r : Nat) (b b' : TransferRingBuffer) :
    Framed (Holding K l r b b') :=
  ⟨fun _ _ h => h.twins.kernel, fun _ _ h l r => (h.twins.data l r).mono False.elim,
    fun _ _ h k => ⟨h.twins.setKernel k, h.left, h.right⟩⟩

section
variable {K : Scope} {l r : Nat} {b b' : TransferRingBuffer} {R : World → World → Prop} {α : Type}

/-- Data is read of which the buffers and the requests are alike. -/
theorem getData_known (hk : ∀ exec, K l r exec) {f f' : ExecutorData → Prog α}
    (hf : ∀ d buffer request, d.buffer.Alike buffer → d.request.Alike request →
      Coupled (Holding K l r d.buffer buffer) R (f d)
        (f' { d with buffer := buffer, request := request })) :
    Coupled (Twins K) R (getData l r >>= f) (getData l r >>= f') := by
  intro w w' h
  have hdata := h.data l r
  have hbuffer : ∀ d, w'.data l r = d → Matched R (f (w.data l r) w) (f' d w') := by
    intro d hd
    rw [hd] at hdata
    cases hdata with
    | intro buffer request hsame =>
      obtain ⟨hb, hq⟩ := hsame (hk _)
      exact hf _ buffer request hb hq w w' ⟨h, rfl, by rw [hd]⟩
  exact hbuffer _ rfl

/-- The buffer is assigned, with other fields besides. -/
theorem storeBuffer_coupled {f f' : ExecutorData → ExecutorData} {c c' : TransferRingBuffer}
    (hgraft : ∀ d request, d.buffer = b → f' { d with buffer := b', request := request } =
      { f d with buffer := c', request := request })
    (hself : ∀ d, d.buffer = b → (f d).buffer = c ∧ (f d).request = d.request ∧
      (f d).pExecutor = d.pExecutor) (hc : c.Alike c') :
    Coupled (Holding K l r b b') (Holding K l r c c') (modifyData l r f) (modifyData l r f') := by
  refine .assign (fun w w' h => ?_)
  obtain ⟨hbuffer, hrequest, hexec⟩ := hself (w.data l r) h.left
  have hdata := h.twins.data l r
  have hright := h.right
  have hstored : (f (w.data l r)).Alike (K l r (f (w.data l r)).pExecutor) (f' (w'.data l r)) ∧
      (f' (w'.data l r)).buffer = c' := by
    generalize w'.data l r = d at hdata hright
    cases hdata with
    | intro buffer request hsame =>
      obtain rfl : buffer = b' := hright
      rw [hgraft _ request h.left, hexec]
      refine ⟨.intro c' request (fun hk => ?_), rfl⟩
      rw [hbuffer, hrequest]
      exact ⟨hc, (hsame hk).2⟩
  refine ⟨h.twins.setData hstored.1 (fun _ _ _ _ hk => hk), ?_, ?_⟩
  · rw [World.setData_self]
    exact hbuffer
  · rw [World.setData_self]
    exact hstored.2

/-- The buffer is not needed any more. -/
theorem storeBuffer_twins {f f' : ExecutorData → ExecutorData} {c c' : TransferRingBuffer}
    (hgraft : ∀ d request, d.buffer = b → f' { d with buffer := b', request := request } =
      { f d with buffer := c', request := request })
    (hself : ∀ d, d.buffer = b → (f d).buffer = c ∧ (f d).request = d.request ∧
      (f d).pExecutor = d.pExecutor) (hc : c.Alike c') :
    Coupled (Holding K l r b b') (Twins K) (modifyData l r f) (modifyData l r f') :=
  (storeBuffer_coupled hgraft hself hc).post (fun _ _ h => h.twins)

theorem clearRetries_holding (hb : b.Alike b') :
    Coupled (Holding K l r b b') (Holding K l r b b') (clearRetries l r) (clearRetries l r) :=
  storeBuffer_coupled (fun _ _ _ => rfl) (fun _ hd => ⟨hd, rfl, rfl⟩) hb

end

/-! ## The epoll set -/

section
variable {K : Scope} {ans : Answers} {l r : Nat} {d d' : ExecutorData}

theorem ExecutorData.Alike.setPollDataOf {p : Prop} (h : d.Alike p d') (fd : Int) (item : Nat) :
    (d.setPollDataOf fd item).Alike p (d'.setPollDataOf fd item) := by
  cases h with
  | intro buffer request h =>
    unfold ExecutorData.setPollDataOf
    dsimp only
    split
    · exact .intro buffer request h
    · split <;> exact .intro buffer request h

theorem ExecutorData.Alike.dropPollData {p : Prop} (h : d.Alike p d') (item : Nat) :
    (d.dropPollData item).Alike p (d'.dropPollData item) := by
  cases h with
  | intro buffer request h =>
    unfold ExecutorData.dropPollData
    dsimp only
    split
    · exact .intro buffer request h
    · split <;> exact .intro buffer request h

theorem allocatePollData_coupled (l : Nat) :
    Coupled (Twins K) (Twins K) (allocatePollData l) (allocatePollData l) := by
  refine getLoop_coupled (fun x y h => ?_)
  cases h with
  | intro execDatas h =>
    dsimp only
    cases x.pollDatas.allocate blockSize with
    | none => exact .fail
    | some handed => exact .bind (modifyLoop_same (fun _ _ => rfl) (fun _ => rfl)) (fun _ => .pure)

theorem freePollData_coupled (l p : Nat) :
    Coupled (Twins K) (Twins K) (freePollData l p) (freePollData l p) :=
  modifyLoop_same (fun _ _ => rfl) (fun _ => rfl)

theorem addToNumOfPollFds_coupled (l : Nat) (n : Int) :
    Coupled (Twins K) (Twins K) (addToNumOfPollFds l n) (addToNumOfPollFds l n) :=
  modifyLoop_same (fun _ _ => rfl) (fun _ => rfl)

theorem addPollFd_coupled (ans : Answers) (l r : Nat) (fd : Int) (events : Nat) :
    Coupled (Twins K) (Twins K) (addPollFd ans l r fd events) (addPollFd ans l r fd events) := by
  refine (framed_twins K).getData (fun d buffer request => .ite .pure (.ite .pure (.ite .pure ?_)))
  refine (allocatePollData_coupled l).bind (fun p => (addToNumOfPollFds_coupled l 1).bind (fun _ =>
    (framed_twins K).getKernel (fun k => ?_)))
  cases (if ans.epollAdd then k.ctlAdd l fd p (watched events) else none) with
  | none =>
    exact (freePollData_coupled l p).bind (fun _ =>
      (addToNumOfPollFds_coupled l (-1)).bind (fun _ => .pure))
  | some k =>
    refine ((framed_twins K).modifyKernel _).bind (fun _ =>
      Coupled.bind (.assign (fun _ _ h => h.setPollData p _)) (fun _ =>
        Coupled.bind ?_ (fun _ => .pure)))
    refine modifyData_coupled (fun d d' h => ?_)
    rw [setPollDataOf_pExecutor]
    exact h.setPollDataOf fd p

theorem removePollFd_coupled (l r : Nat) (fd : Int) :
    Coupled (Twins K) (Twins K) (removePollFd l r fd) (removePollFd l r fd) := by
  refine (framed_twins K).getData (fun d buffer request => ?_)
  rw [pollDataOf_bytes d buffer request]
  cases d.pollDataOf fd with
  | none => exact .pure
  | some p =>
    refine (framed_twins K).getKernel (fun k => ?_)
    cases k.ctlDel l fd with
    | none => exact .pure
    | some k =>
      have hdown : Coupled (Twins K) (Twins K)
          (modify (fun w => w.setPollData l p (w.pollData l p).down) : Prog PUnit)
          (modify (fun w => w.setPollData l p (w.pollData l p).down)) :=
        .assign (fun _ _ h => h.setPollData p _)
      refine ((framed_twins K).modifyKernel _).bind (fun _ => hdown.bind (fun _ =>
        (freePollData_coupled l p).bind (fun _ => (addToNumOfPollFds_coupled l (-1)).bind (fun _ =>
          Coupled.bind ?_ (fun _ => .pure)))))
      refine modifyData_coupled (fun d d' h => ?_)
      rw [dropPollData_pExecutor]
      exact h.dropPollData p

theorem unwatch_coupled (l r : Nat) (c : Prop) [Decidable c] (fd : Int) :
    Coupled (Twins K) (Twins K) (when c (do let _ ← removePollFd l r fd))
      (when c (do let _ ← removePollFd l r fd)) :=
  when_coupled (fun _ => (removePollFd_coupled l r fd).bind (fun _ => .pure)) (fun _ _ h => h)

theorem closeFd_coupled (l r : Nat) (fd : Int) :
    Coupled (Twins K) (Twins K) (closeFd l r fd) (closeFd l r fd) := by
  refine (framed_twins K).getData (fun d buffer request => .ite ?_ (.ite ?_ .pure))
  · exact (unwatch_coupled l r _ _).bind (fun _ => ((framed_twins K).close _).bind (fun _ =>
      .bind (modifyData_same (fun _ _ _ => rfl) (fun _ => ⟨rfl, rfl, rfl⟩)) (fun _ => .pure)))
  · exact (unwatch_coupled l r _ _).bind (fun _ => ((framed_twins K).close _).bind (fun _ =>
      .bind (modifyData_same (fun _ _ _ => rfl) (fun _ => ⟨rfl, rfl, rfl⟩)) (fun _ => .pure)))

/-! ## Places of the storage -/

theorem allocateExecData_coupled (l : Nat) :
    Coupled (Twins K) (Twins K) (allocateExecData l) (allocateExecData l) := by
  refine getLoop_coupled (fun x y h => ?_)
  cases h with
  | intro execDatas h =>
    dsimp only
    have hallocate := h.allocate (fun _ => .refl _ _) blockSize
    revert hallocate
    generalize x.execDatas.allocate blockSize = handed
    generalize execDatas.allocate blockSize = handed'
    intro hallocate
    cases hallocate with
    | failed => exact .fail
    | returned r s s' hs =>
      refine .bind (modifyLoop_coupled (fun y z hy => ?_)) (fun _ => .pure)
      cases hy with
      | intro _ _ => exact .intro s' hs

theorem freeExecData_coupled (l r : Nat) :
    Coupled (Twins K) (Twins K) (freeExecData l r) (freeExecData l r) := by
  refine modifyLoop_coupled (fun x y h => ?_)
  cases h with
  | intro execDatas h => exact .intro _ (h.free r)

theorem createExecutorData_coupled (ans : Answers) (l : Nat) :
    Coupled (Twins K) (Twins K) (createExecutorData ans l) (createExecutorData ans l) :=
  (allocateExecData_coupled l).bind (fun _ =>
    .bind (modifyData_same (fun _ _ _ => rfl) (fun _ => ⟨rfl, rfl, rfl⟩)) (fun _ => .pure))

theorem closePositive_coupled (fd : Int) :
    Coupled (Twins K) (Twins K) (closePositive fd) (closePositive fd) :=
  when_coupled (fun _ => (framed_twins K).close fd) (fun _ _ h => h)

theorem ExecutorData.Alike.cleared {p : Prop} (h : d.Alike p d') :
    d.cleared.Alike p d'.cleared := by
  cases h with
  | intro buffer request h =>
    exact .intro buffer.clear request (fun hp => ⟨(h hp).1.clear, (h hp).2⟩)

/-- What the data held is closed, and the allocations stay. -/
theorem down_coupled (hK : K.Clears) :
    Coupled (Twins K) (Twins K) (down l r) (down l r) := by
  refine (framed_twins K).getData (fun d buffer request =>
    (closePositive_coupled _).bind (fun _ => (closePositive_coupled _).bind (fun _ =>
      (closePositive_coupled _).bind (fun _ => (closePositive_coupled _).bind (fun _ => ?_)))))
  exact modifyData_coupled (fun d d' h => h.cleared.mono (hK l r _))

theorem removeExecutorData_coupled (hK : K.Clears) :
    Coupled (Twins K) (Twins K) (removeExecutorData l r) (removeExecutorData l r) :=
  (framed_twins K).getData (fun _ _ _ => (unwatch_coupled l r _ _).bind (fun _ =>
    (framed_twins K).getData (fun _ _ _ => (unwatch_coupled l r _ _).bind (fun _ =>
      (down_coupled hK).bind (fun _ => freeExecData_coupled l r)))))

end

end EpollHttp
