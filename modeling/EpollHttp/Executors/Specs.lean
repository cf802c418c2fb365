import EpollHttp.PollLoop.Specs
import EpollHttp.Executors.ProxyExecutor

/-
What reading and writing do to the kernel, for descriptors that are open.
-/

namespace EpollHttp

open Program

section
variable {ans : Answers} {w : World} {l r : Nat} {fd : Int} {id : Nat} {bytes : Bytes}

theorem write_spec (hopen : w.kernel.openId? fd = some id) :
    Ensures (write ans fd bytes) w (fun written w' =>
      written.result = min ans.write.count bytes.length ∧
        w' = w.setKernel (w.kernel.send id (bytes.take written.result.toNat))) := by
  simp [write, hopen, sendSome]

theorem sslWrite_spec (hopen : w.kernel.openId? fd = some id) :
    Ensures (sslWrite ans fd bytes) w (fun result w' =>
      result = min ans.sslWrite bytes.length ∧
        w' = w.setKernel (w.kernel.send id (bytes.take result.toNat))) := by
  simp [sslWrite, hopen, sendSome]

/-- A read fails, or takes what came up to the count. -/
theorem read_spec {count : Nat} (hopen : w.kernel.openId? fd = some id) :
    Ensures (read ans fd count) w (fun received w' =>
      (received.result = -1 ∧ w' = w) ∨
        ∃ came, ans.read.bytes = some came ∧ received.bytes = came.take count ∧
          received.result = received.bytes.length ∧
          w' = w.setKernel (w.kernel.take id received.bytes)) := by
  simp only [read, ensures_bind, ensures_getKernel, hopen, receive]
  cases hcame : ans.read.bytes with
  | none => simp
  | some came => simp

/-- A splice into a pipe fails, or moves what came up to the count. -/
theorem spliceIn_spec {pipeWriteFd : Int} {pipeId count : Nat} (hopen : w.kernel.openId? fd = some id)
    (hpipe : w.kernel.openId? pipeWriteFd = some pipeId) :
    Ensures (spliceIn ans fd pipeWriteFd count) w (fun received w' =>
      (received.result = -1 ∧ w' = w) ∨
        ∃ came, ans.spliceIn.bytes = some came ∧ received.bytes = came.take count ∧
          received.result = received.bytes.length ∧
          w' = w.setKernel ((w.kernel.take id received.bytes).setPipe (w.kernel.readEnd pipeId)
            (w.kernel.pipes (w.kernel.readEnd pipeId) ++ received.bytes))) := by
  simp only [spliceIn, ensures_bind, ensures_getKernel, hopen, hpipe, receive]
  cases ans.spliceIn.bytes with
  | none =>
    simp only [ensures_modifyKernel, ensures_pure, List.append_nil,
      Kernel.setPipe_self]
    exact Or.inl ⟨trivial, rfl⟩
  | some came =>
    simp only [ensures_bind, ensures_modifyKernel, ensures_pure]
    exact Or.inr ⟨came, rfl, rfl, trivial, rfl⟩

theorem spliceOut_spec {pipeReadFd : Int} {pipeId count : Nat}
    (hpipe : w.kernel.openId? pipeReadFd = some pipeId) (hopen : w.kernel.openId? fd = some id) :
    Ensures (spliceOut ans pipeReadFd fd count) w (fun written w' =>
      written.result = min ans.spliceOut.count ((w.kernel.pipes pipeId).take count).length ∧
        w' = w.setKernel ((w.kernel.send id (((w.kernel.pipes pipeId).take count).take
          written.result.toNat)).setPipe pipeId
            ((w.kernel.pipes pipeId).drop written.result.toNat))) := by
  simp only [spliceOut, ensures_bind, ensures_getKernel, hopen, hpipe, sendSome,
    ensures_modifyKernel, ensures_pure]
  exact ⟨trivial, rfl⟩

theorem sendfile_spec {inFd count : Int} {inId : Nat} (hout : w.kernel.openId? fd = some id)
    (hin : w.kernel.openId? inFd = some inId) :
    Ensures (sendfile ans fd inFd count) w (fun sent w' => sent.errno = ans.sendfile.errno ∧
      ((ans.sendfile.bytes = none ∧ sent.result = -1 ∧ w' = w) ∨
        ∃ came, ans.sendfile.bytes = some came ∧ sent.result = (came.take count.toNat).length ∧
          w' = w.setKernel ((w.kernel.take inId (came.take count.toNat)).send id
            (came.take count.toNat)))) := by
  simp only [sendfile, ensures_bind, ensures_getKernel, hout, hin, receive, sendSome]
  cases ans.sendfile.bytes with
  | none =>
    simp only [ensures_pure, ensures_modifyKernel, List.take_nil,
      Kernel.send_nil]
    exact ⟨trivial, Or.inl ⟨trivial, trivial, rfl⟩⟩
  | some came =>
    simp only [ensures_pure, ensures_modifyKernel, ensures_bind, Int.toNat_natCast,
      List.take_length]
    exact ⟨trivial, Or.inr ⟨came, rfl, rfl, rfl⟩⟩

/-! ## New descriptors -/

theorem newDescriptor_spec {accepted : Bool} :
    Ensures (newDescriptor fd accepted) w (fun res w' =>
      (res = -1 ∧ w' = w) ∨
        (res = fd ∧ w.kernel.Available fd ∧ w' = w.setKernel (w.kernel.opened fd accepted))) := by
  simp only [newDescriptor, ensures_bind, ensures_getKernel, ensures_ite, ensures_pure,
    ensures_modifyKernel, ensures_fail]
  exact ⟨fun _ => Or.inl ⟨trivial, trivial⟩, fun _ => ⟨fun h => Or.inr ⟨trivial, h, trivial⟩,
    fun _ => trivial⟩⟩

/-- A socket was opened, or none is left open. -/
def Socket (w : World) (fd : Int) (w' : World) : Prop :=
  (fd = -1 ∧ (w' = w ∨ ∃ sock, w.kernel.Available sock ∧
      w' = w.setKernel ((w.kernel.opened sock false).close sock))) ∨
    (w.kernel.Available fd ∧ w' = w.setKernel (w.kernel.opened fd false))

theorem socketConnectNonBlock_spec :
    Ensures (socketConnectNonBlock ans) w (fun res w' => Socket w res.1 w') := by
  simp only [socketConnectNonBlock, ensures_bind, ensures_ite, ensures_pure]
  refine newDescriptor_spec.mono (fun sock w1 h => ?_)
  refine ⟨fun hneg => ?_, fun hpos => ?_⟩
  · rcases h with ⟨_, rfl⟩ | ⟨rfl, havail, _⟩
    · exact Or.inl ⟨rfl, Or.inl rfl⟩
    · have h0 := havail.1
      omega
  · rcases h with ⟨rfl, _⟩ | ⟨rfl, havail, rfl⟩
    · exact absurd (by decide) hpos
    · cases ans.connect with
      | none => exact ensures_pure.mpr (Or.inr ⟨havail, rfl⟩)
      | some errno =>
        simp only [ensures_ite, ensures_bind, ensures_close, ensures_pure]
        exact ⟨fun _ => Or.inl ⟨rfl, Or.inr ⟨_, havail, rfl⟩⟩, fun _ => Or.inr ⟨havail, rfl⟩⟩

theorem socketConnectUnixNonBlock_spec {pathFits : Bool} :
    Ensures (socketConnectUnixNonBlock ans pathFits) w (fun res w' => Socket w res.1 w') := by
  simp only [socketConnectUnixNonBlock, ensures_ite, ensures_pure]
  exact ⟨fun _ => socketConnectNonBlock_spec, fun _ => Or.inl ⟨rfl, Or.inl rfl⟩⟩

theorem ProxyExecutor.connect_spec {proxy : ProxyParameters} :
    Ensures (ProxyExecutor.connect ans proxy) w (fun res w' => Socket w res.1 w') := by
  unfold ProxyExecutor.connect
  cases proxy.socketType with
  | tcp => exact socketConnectNonBlock_spec
  | unix => exact socketConnectUnixNonBlock_spec
  | none => exact ensures_pure.mpr (Or.inl ⟨rfl, Or.inl rfl⟩)

theorem socketListen_spec :
    Ensures (socketListen ans) w (fun res w' => Socket w res w') := by
  simp only [socketListen, ensures_bind, ensures_ite, ensures_pure, ensures_close]
  refine newDescriptor_spec.mono (fun sock w1 h => ?_)
  refine ⟨fun hneg => ?_, fun hpos => ⟨fun _ => ?_, fun _ => ?_⟩⟩
  · rcases h with ⟨_, rfl⟩ | ⟨rfl, havail, _⟩
    · exact Or.inl ⟨rfl, Or.inl rfl⟩
    · have h0 := havail.1
      omega
  · rcases h with ⟨rfl, _⟩ | ⟨rfl, havail, rfl⟩
    · exact absurd (by decide) hpos
    · exact Or.inr ⟨havail, rfl⟩
  · rcases h with ⟨rfl, _⟩ | ⟨rfl, havail, rfl⟩
    · exact absurd (by decide) hpos
    · exact Or.inl ⟨rfl, Or.inr ⟨_, havail, rfl⟩⟩

/-! ## Writing to the client -/

/-- The registration of a descriptor may now ask for `EPOLLOUT`. -/
def Reedited (l : Nat) (fd : Int) (k k' : Kernel) : Prop :=
  ∀ l' fd', k'.epoll l' fd' = k.epoll l' fd' ∨
    (l' = l ∧ fd' = fd ∧ ∃ reg reg', k.epoll l fd = some reg ∧ k'.epoll l fd = some reg' ∧
      hasEvent reg'.events EPOLLOUT = true)

/-- How many bytes the operating system or the SSL library would take. -/
def Executor.writeCount (e : Executor) (ans : Answers) : Int :=
  match e with
  | .sslFile => ans.sslWrite
  | .sslProxy => ans.sslWrite
  | _ => ans.write.count

/-- The client was sent the first bytes of what it was offered. -/
structure WroteFd0 (e : Executor) (ans : Answers) (w : World) (l r id : Nat) (bytes : Bytes)
    (result : Int) (w' : World) : Prop where
  count : result = min (e.writeCount ans) bytes.length
  kernel : ∃ k, w' = w.setKernel k ∧
    Kernel.SameStreams (w.kernel.send id (bytes.take result.toNat)) k ∧
    Reedited l (w.data l r).fd0 w.kernel k

theorem plainWriteFd0_spec (hopen : w.kernel.openId? (w.data l r).fd0 = some id) :
    Ensures (Executor.plainWriteFd0 ans l r bytes) w (fun written w' =>
      written.result = min ans.write.count bytes.length ∧
        w' = w.setKernel (w.kernel.send id (bytes.take written.result.toNat))) := by
  simp only [Executor.plainWriteFd0, ensures_bind, ensures_getData, ensures_pure]
  exact (write_spec hopen).mono (fun _ _ h => h)

theorem sslWriteFd0_spec (hopen : w.kernel.openId? (w.data l r).fd0 = some id) :
    Ensures (sslWriteFd0 ans l r bytes) w (fun written w' =>
      written.result = min ans.sslWrite bytes.length ∧ ∃ k, w' = w.setKernel k ∧
        Kernel.SameStreams (w.kernel.send id (bytes.take written.result.toNat)) k ∧
        Reedited l (w.data l r).fd0 w.kernel k) := by
  simp only [sslWriteFd0, ensures_bind, ensures_getData]
  refine (sslWrite_spec hopen).mono (fun result w1 h => ?_)
  obtain ⟨hresult, rfl⟩ := h
  have hsent : Reedited l (w.data l r).fd0 w.kernel
      (w.kernel.send id (bytes.take result.toNat)) := fun l' fd' => Or.inl rfl
  rw [ensures_ite]
  refine ⟨fun _ => ensures_pure.mpr ⟨hresult, _, rfl, Kernel.SameStreams.refl _, hsent⟩,
    fun _ => ?_⟩
  cases ans.sslWriteError with
  | wantWrite =>
    exact ensures_pure.mpr ⟨hresult, _, rfl, Kernel.SameStreams.refl _, hsent⟩
  | other => exact ensures_pure.mpr ⟨hresult, _, rfl, Kernel.SameStreams.refl _, hsent⟩
  | wantRead =>
    simp only [ensures_bind]
    refine editPollFd_spec.mono (fun edited w2 h2 => ?_)
    -- The registration now asks for EPOLLIN as well.
    have hpost : ∃ k, w2 = w.setKernel k ∧
        Kernel.SameStreams (w.kernel.send id (bytes.take result.toNat)) k ∧
        Reedited l (w.data l r).fd0 w.kernel k := by
      rcases h2 with ⟨_, p, k, _, hmod, rfl⟩ | ⟨_, rfl⟩
      · obtain ⟨reg, hreg, hk⟩ := Kernel.ctlMod_some hmod
        refine ⟨k, rfl, Kernel.SameStreams.ctlMod hmod, fun l' fd' => ?_⟩
        by_cases hself : l' = l ∧ fd' = (w.data l r).fd0
        · obtain ⟨rfl, rfl⟩ := hself
          have hset : k.epoll l' (w.data l' r).fd0 = some
              { ptr := p, events := watched (EPOLLIN ||| EPOLLOUT), serial := reg.serial } := by
            rw [hk]
            exact Kernel.setRegistration_self _
          have hout : hasEvent (watched (EPOLLIN ||| EPOLLOUT)) EPOLLOUT = true := by decide
          exact Or.inr ⟨rfl, rfl, reg, _, hreg, hset, hout⟩
        · refine Or.inl ?_
          rw [hk]
          exact Kernel.setRegistration_other _ hself
      · exact ⟨_, rfl, Kernel.SameStreams.refl _, hsent⟩
    rw [ensures_ite]
    exact ⟨fun _ => ensures_pure.mpr ⟨hresult, hpost⟩, fun _ => ensures_pure.mpr ⟨hresult, hpost⟩⟩

theorem writeFd0_spec (e : Executor) (hopen : w.kernel.openId? (w.data l r).fd0 = some id) :
    Ensures (e.writeFd0 ans l r bytes) w (fun written w' =>
      WroteFd0 e ans w l r id bytes written.result w') := by
  have hplain : Ensures (Executor.plainWriteFd0 ans l r bytes) w (fun written w' =>
      written.result = min ans.write.count bytes.length ∧ ∃ k, w' = w.setKernel k ∧
        Kernel.SameStreams (w.kernel.send id (bytes.take written.result.toNat)) k ∧
        Reedited l (w.data l r).fd0 w.kernel k) :=
    (plainWriteFd0_spec hopen).mono (fun _ _ h =>
      ⟨h.1, _, h.2, Kernel.SameStreams.refl _, fun _ _ => Or.inl rfl⟩)
  cases e with
  | sslFile => exact (sslWriteFd0_spec hopen).mono (fun _ _ h => ⟨h.1, h.2⟩)
  | sslProxy => exact (sslWriteFd0_spec hopen).mono (fun _ _ h => ⟨h.1, h.2⟩)
  | _ => exact hplain.mono (fun _ _ h => ⟨h.1, h.2⟩)

end

end EpollHttp
