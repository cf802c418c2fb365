import EpollHttp.Executors.Attentive

/-
Every call of an executor leaves a stance that fits, or asks for the removal of the executor.

The exceptions are the calls in which the SSL library wants the other direction and the executor
stays.
-/

namespace EpollHttp

open Program

/-! ## The masks that the SSL library widens -/

/-- `SSL_read` into the buffer of the request fails and asks for a write, and the executor stays. -/
def SslRequestExecutor.Widens (ans : Answers) (d : ExecutorData) : Prop :=
  ans.sslReadError = .wantWrite ∧ ans.epollMod = true ∧
    d.retryCounter < ExecutorData.MAX_RETRY_COUNTER ∧
    ∃ window ∈ d.buffer.startWrite.1, ans.sslRead.take window.size = []

/-- `SSL_write` of what the buffer holds fails and asks for a read, and the executor stays. -/
def ExecutorData.WriteWidens (ans : Answers) (d : ExecutorData) : Prop :=
  ans.sslWriteError = .wantRead ∧ ans.epollMod = true ∧ d.pollData0 ≠ none ∧
    d.retryCounter < ExecutorData.MAX_RETRY_COUNTER ∧
    ∃ window ∈ d.buffer.startRead,
      min ans.sslWrite (d.buffer.slice window.start (window.start + window.size)).length ≤ 0

/-- `SSL_write` does so behind a read from the upstream server. -/
def ProxyExecutorReadWrite.ReadWidens (ans : Answers) (d : ExecutorData) : Prop :=
  ∃ window ∈ d.buffer.startWrite.1, ∃ came ∈ ans.read.bytes,
    if came.take window.size = [] then
      ExecutorData.WriteWidens ans { d with buffer := d.buffer.startWrite.2 }
    else ExecutorData.WriteWidens ans { d with
      buffer := (d.buffer.startWrite.2.fill window.start (came.take window.size)).endWrite
        (came.take window.size).length
      retryCounter := 0 }

/-- The call widens a mask in a state in which the executor accepts one event only. -/
def Executor.Widens (e : Executor) (ans : Answers) (d : ExecutorData) (fd : Int) (events : Nat) :
    Prop :=
  match e with
  | .sslRequest =>
    d.state = .readRequest ∧ fd = d.fd0 ∧ events = EPOLLIN ∧ SslRequestExecutor.Widens ans d
  | .sslFile =>
    (d.state = .sendHeaders ∨ d.state = .sendOnlyHeaders) ∧ fd = d.fd0 ∧
      hasEvent events EPOLLOUT ∧ d.WriteWidens ans
  | .sslProxy =>
    (d.state = .forwardResponse ∧ fd = d.fd1 ∧ hasEvent events EPOLLIN ∧
      ProxyExecutorReadWrite.ReadWidens ans d) ∨
      ((d.state = .forwardResponse ∨ d.state = .forwardResponseOnlyWrite) ∧ fd = d.fd0 ∧
        hasEvent events EPOLLOUT ∧ d.WriteWidens ans)
  | _ => False

instance (ans : Answers) (d : ExecutorData) : Decidable (SslRequestExecutor.Widens ans d) :=
  inferInstanceAs (Decidable (_ ∧ _ ∧ _ ∧ _))

instance (ans : Answers) (d : ExecutorData) : Decidable (d.WriteWidens ans) :=
  inferInstanceAs (Decidable (_ ∧ _ ∧ _ ∧ _ ∧ _))

instance (ans : Answers) (d : ExecutorData) :
    Decidable (ProxyExecutorReadWrite.ReadWidens ans d) :=
  inferInstanceAs (Decidable (∃ window ∈ d.buffer.startWrite.1, ∃ came ∈ ans.read.bytes, _))

instance (e : Executor) (ans : Answers) (d : ExecutorData) (fd : Int) (events : Nat) :
    Decidable (e.Widens ans d fd events) :=
  match e with
  | .sslRequest => inferInstanceAs (Decidable (_ ∧ _ ∧ _ ∧ _))
  | .sslFile => inferInstanceAs (Decidable (_ ∧ _ ∧ _ ∧ _))
  | .sslProxy => inferInstanceAs (Decidable ((_ ∧ _ ∧ _ ∧ _) ∨ (_ ∧ _ ∧ _ ∧ _)))
  | .newFd => .isFalse id
  | .server => .isFalse id
  | .sslServer => .isFalse id
  | .request => .isFalse id
  | .file => .isFalse id
  | .proxySplice => .isFalse id
  | .proxyReadWrite => .isFalse id

/-! ## What a call settles -/

/-- The stance fits when the executor stays. -/
def Settled (l r : Nat) (w0 : World) (result : ProcessResult) (w : World) : Prop :=
  ∃ s, Stands l r w0 s w ∧ (result = .ok →
    s.Fits ∨ ExecutorData.MAX_RETRY_COUNTER < (w.data l r).retryCounter)

section
variable {ans : Answers} {w0 w w' : World} {l r : Nat} {s : Stance} {e : Executor} {fd : Int}
variable {events : Nat} {bytes : Bytes} {result : ProcessResult}

theorem Stands.settled (h : Stands l r w0 s w) (hfits : s.Fits) : Settled l r w0 result w :=
  ⟨s, h, fun _ => Or.inl hfits⟩

theorem Stands.leaves (h : Stands l r w0 s w) (hne : result ≠ .ok) : Settled l r w0 result w :=
  ⟨s, h, fun hok => absurd hok hne⟩

theorem Preserves.settles {m : Prog ProcessResult} (hm : Preserves (Stands l r w0 s) m)
    (h : Stands l r w0 s w) (hfits : s.Fits) : Ensures m w (Settled l r w0) :=
  (hm w h).mono (fun _ _ h' => h'.settled hfits)

/-! ## Writing to the client -/

/-- When an edit succeeds, the descriptor is watched. -/
theorem editPollFd_facts (hb : Booked w) : Ensures (editPollFd ans l r fd events) w
    (fun result w' => w'.data l r = w.data l r ∧ (result = 0 → ans.epollMod = true ∧
      (w.data l r).pollDataOf fd ≠ none ∧ w.kernel.openId? fd ≠ none)) := by
  have hmod : Ensures (editPollFd ans l r fd events) w (fun result _ =>
      result = 0 → ans.epollMod = true) := by
    simp only [editPollFd, ensures_bind, ensures_getData]
    cases (w.data l r).pollDataOf fd with
    | none => exact ensures_pure.mpr (fun hzero => absurd hzero (by decide))
    | some p =>
      simp only [ensures_bind, ensures_getKernel]
      cases hk : (if ans.epollMod then w.kernel.ctlMod l fd p (watched events) else none) with
      | none => exact ensures_pure.mpr (fun hzero => absurd hzero (by decide))
      | some k =>
        simp only [ensures_bind, ensures_modifyKernel, ensures_pure]
        intro _
        by_contra hans
        rw [if_neg hans] at hk
        cases hk
  refine (editPollFd_spec.and hmod).mono (fun result w' hboth => ?_)
  obtain ⟨⟨hzero, p, k, hp, hk, rfl⟩ | ⟨hneg, rfl⟩, hmod⟩ := hboth
  · obtain ⟨reg, hreg, _⟩ := Kernel.ctlMod_some hk
    refine ⟨rfl, fun hzero => ⟨hmod hzero, ?_, hb.registered l fd ?_⟩⟩
    · rw [hp]
      exact Option.some_ne_none _
    · rw [hreg]
      exact Option.some_ne_none _
  · exact ⟨rfl, fun hzero => absurd (hneg.symm.trans hzero) (by decide)⟩

/-- The mask of the client was widened by a write that failed. -/
structure Widened (ans : Answers) (l r : Nat) (w0 : World) (s : Stance) (bytes : Bytes)
    (w w' : World) : Prop where
  error : ans.sslWriteError = .wantRead
  edited : ans.epollMod = true
  watched : (w.data l r).pollData0 ≠ none
  count : min ans.sslWrite bytes.length ≤ 0
  stands : Stands l r w0 (s.watch .fd0 (some (EpollHttp.watched (EPOLLIN ||| EPOLLOUT)))) w'

theorem stands_sslWriteFd0 (h : Stands l r w0 s w) :
    Ensures (sslWriteFd0 ans l r bytes) w (fun written w' => w'.data l r = w.data l r ∧
      (Stands l r w0 s w' ∨ (written.result ≤ 0 ∧ Widened ans l r w0 s bytes w w'))) := by
  simp only [sslWriteFd0, ensures_bind, ensures_getData]
  have hwrite : Ensures (sslWrite ans (w.data l r).fd0 bytes) w (fun result w1 =>
      Stands l r w0 s w1 ∧ w1.data l r = w.data l r ∧
        (w1.kernel.openId? (w.data l r).fd0 ≠ none → result = min ans.sslWrite bytes.length)) := by
    refine (stands_sslWrite w h).and ?_ |>.mono (fun _ _ both => both)
    cases hopen : w.kernel.openId? (w.data l r).fd0 with
    | some id =>
      refine (sslWrite_spec hopen).mono (fun result w1 hspec => ?_)
      obtain ⟨hresult, rfl⟩ := hspec
      exact ⟨rfl, fun _ => hresult⟩
    | none =>
      simp only [sslWrite, ensures_bind, ensures_getKernel, hopen, ensures_pure]
      exact ⟨trivial, fun hne => absurd rfl hne⟩
  refine hwrite.mono (fun result w1 h1 => ?_)
  obtain ⟨h1, hdata, hresult⟩ := h1
  rw [ensures_ite, ensures_pure]
  refine ⟨fun _ => ⟨hdata, Or.inl h1⟩, fun hneg => ?_⟩
  cases herror : ans.sslWriteError with
  | wantWrite => exact ensures_pure.mpr ⟨hdata, Or.inl h1⟩
  | other => exact ensures_pure.mpr ⟨hdata, Or.inl h1⟩
  | wantRead =>
    simp only [ensures_bind, ensures_ite, ensures_pure]
    have hat : w1.fdAt l r .fd0 = (w.data l r).fd0 := congrArg ExecutorData.fd0 hdata
    refine ((stands_editPollFd h1 (Or.inl rfl) hat).and (editPollFd_facts h1.did.booked)).mono
      (fun edited w2 h2 => ?_)
    obtain ⟨hwatched, hdata2, hfacts⟩ := h2
    rcases hwatched with ⟨hzero, h2⟩ | ⟨hfailed, h2⟩
    · obtain ⟨hmod, hp, hopen⟩ := hfacts hzero
      have hcount := hresult hopen
      rw [hdata] at hp
      have hp0 : (w.data l r).pollData0 ≠ none := by
        unfold ExecutorData.pollDataOf at hp
        rwa [if_pos rfl] at hp
      have hwidened : Widened ans l r w0 s bytes w w2 :=
        ⟨herror, hmod, hp0, by omega, h2⟩
      exact ⟨fun _ => ⟨hdata2.trans hdata, Or.inr ⟨by omega, hwidened⟩⟩,
        fun _ => ⟨hdata2.trans hdata, Or.inr ⟨by omega, hwidened⟩⟩⟩
    · exact ⟨fun _ => ⟨hdata2.trans hdata, Or.inl h2⟩, fun _ => ⟨hdata2.trans hdata, Or.inl h2⟩⟩

/-- The executors that write through the SSL library. -/
def Executor.WritesSsl (e : Executor) : Prop := e = .sslFile ∨ e = .sslProxy

theorem stands_writeFd0 (h : Stands l r w0 s w) :
    Ensures (e.writeFd0 ans l r bytes) w (fun written w' => Stands l r w0 s w' ∨
      (w'.data l r = w.data l r ∧ e.WritesSsl ∧ written.result ≤ 0 ∧
        Widened ans l r w0 s bytes w w')) := by
  have hssl : e.WritesSsl → Ensures (sslWriteFd0 ans l r bytes) w (fun written w' =>
      Stands l r w0 s w' ∨ (w'.data l r = w.data l r ∧ e.WritesSsl ∧ written.result ≤ 0 ∧
        Widened ans l r w0 s bytes w w')) := fun he =>
    (stands_sslWriteFd0 h).mono (fun _ _ h' => h'.2.imp_right
      (fun hwide => ⟨h'.1, he, hwide.1, hwide.2⟩))
  cases e with
  | sslFile => exact hssl (Or.inl rfl)
  | sslProxy => exact hssl (Or.inr rfl)
  | _ => exact (stands_plainWriteFd0 w h).mono (fun _ _ h' => Or.inl h')

/-- A mask that was widened breaks the stance unless the executor has no retry left. -/
theorem Widened.retries (hw : Widened ans l r w0 s bytes w w') {window : TransferRingBuffer.Window}
    (hwindow : (w.data l r).buffer.startRead = some window)
    (hbytes : bytes = (w.data l r).buffer.slice window.start (window.start + window.size))
    (hnot : ¬ (w.data l r).WriteWidens ans) :
    ExecutorData.MAX_RETRY_COUNTER < (w.data l r).retryCounter + 1 := by
  by_contra hle
  refine hnot ⟨hw.error, hw.edited, hw.watched, by omega, window, hwindow, ?_⟩
  rw [← hbytes]
  exact hw.count

/-- A retry that is not counted any more. -/
theorem Widened.settled (hw : Widened ans l r w0 s bytes w w')
    (hdata : w'.data l r = w.data l r)
    (hretries : ExecutorData.MAX_RETRY_COUNTER < (w.data l r).retryCounter + 1) :
    Settled l r w0 result
      (w'.setData l r { w'.data l r with retryCounter := (w'.data l r).retryCounter + 1 }) := by
  refine ⟨_, ensures_countRetry.mp (stands_countRetry w' hw.stands), fun _ => Or.inr ?_⟩
  rw [World.setData_self, hdata]
  exact hretries

/-! ## Files -/

/-- The headers were created, or not; the stance is what it was. -/
theorem stands_createHeaders {text : Nat → Option Bytes} :
    Preserves (Stands l r w0 s) (FileExecutor.createHeaders l r text) := by
  refine Preserves.bind stands_getData (fun data => ?_)
  rcases data.buffer.clear.startWrite with ⟨window, buffer⟩
  refine Preserves.bind
    (stands_assign (fun _ _ => rfl) (fun _ _ => rfl) (fun _ => rfl) (fun _ => rfl)) (fun _ => ?_)
  cases window with
  | none => exact Preserves.pure
  | some window =>
    dsimp only
    cases text window.size with
    | none => exact Preserves.pure
    | some bytes =>
      exact Preserves.bind
        (stands_assign (fun _ _ => rfl) (fun _ _ => rfl) (fun _ => rfl) (fun _ => rfl))
        (fun _ => Preserves.pure)

/-- `up` succeeded with a stance that fits, or it failed. -/
def Upped (l r : Nat) (w0 : World) (result : Int) (w : World) : Prop :=
  ∃ s, Stands l r w0 s w ∧ (result = 0 → s.Fits)

theorem Stands.failed {code : Int} (h : Stands l r w0 s w) (hne : code ≠ 0) :
    Upped l r w0 code w := ⟨s, h, fun hzero => absurd hzero hne⟩

/-- A file executor whose client is watched for `EPOLLOUT`. -/
theorem sends_fits {state : ExecutorData.State} (he : s.exec = some .file ∨ s.exec = some .sslFile)
    (hstate : state = .sendHeaders ∨ state = .sendOnlyHeaders ∨ state = .sendFile)
    (hupstream : s.upstream = none) :
    ({ s with state := state, client := some (watched EPOLLOUT) } : Stance).Fits := by
  unfold Stance.Fits
  rcases he with he | he
  · rw [he]
    exact ⟨hstate, rfl, hupstream⟩
  · rw [he]
    exact Or.inl ⟨hstate, rfl, hupstream⟩

theorem watchClient_spec (h : Stands l r w0 s w) :
    Ensures (FileExecutor.watchClient ans l r) w (fun result w' =>
      MaskSet l r w0 s .fd0 (some (watched EPOLLOUT)) result w') := by
  simp only [FileExecutor.watchClient, ensures_bind, ensures_getData, ensures_ite, ensures_pure]
  have hat : w.fdAt l r .fd0 = (w.data l r).fd0 := rfl
  refine (stands_editPollFd h (Or.inl rfl) hat).mono (fun edited w1 h1 => ?_)
  rcases h1 with ⟨hzero, h1⟩ | ⟨hfailed, h1⟩
  · exact ⟨fun hne => absurd hzero hne, fun _ => Or.inl ⟨rfl, h1⟩⟩
  · exact ⟨fun _ => Or.inr ⟨rfl, h1⟩, fun hzero => absurd (by rw [hfailed]; decide) hzero⟩

theorem upNotFound_upped (h : Stands l r w0 s w)
    (he : s.exec = some .file ∨ s.exec = some .sslFile) (hupstream : s.upstream = none) :
    Ensures (FileExecutor.upNotFound ans l r) w (Upped l r w0) := by
  simp only [FileExecutor.upNotFound, FileExecutor.createResponse, ensures_bind, ensures_ite,
    ensures_pure, ensures_setState]
  refine (stands_createHeaders w h).mono (fun created w1 h1 => ?_)
  refine ⟨fun _ => h1.failed (by decide), fun _ => (watchClient_spec h1).mono
    (fun watching w2 h2 => ?_)⟩
  rcases h2 with ⟨hzero, h2⟩ | ⟨hfailed, h2⟩
  · refine ⟨fun hne => absurd hzero hne, fun _ => ⟨_, stands_setState h2 _, fun _ => ?_⟩⟩
    exact sends_fits he (Or.inr (Or.inl rfl)) hupstream
  · exact ⟨fun _ => h2.failed (by decide), fun hzero => absurd (by rw [hfailed]; decide) hzero⟩

theorem upOpened_upped (h : Stands l r w0 s w)
    (he : s.exec = some .file ∨ s.exec = some .sslFile) (hupstream : s.upstream = none) :
    Ensures (FileExecutor.upOpened ans l r) w (Upped l r w0) := by
  -- The state is set, and then the client is watched.
  have hwatch : ∀ {state : ExecutorData.State} {w1 : World}, Stands l r w0 s w1 →
      (state = .sendHeaders ∨ state = .sendOnlyHeaders ∨ state = .sendFile) →
      Ensures (FileExecutor.watchClient ans l r)
        (w1.setData l r { w1.data l r with state := state }) (Upped l r w0) := by
    intro state w1 h1 hstate
    refine (watchClient_spec (stands_setState h1 state)).mono (fun result w2 h2 => ?_)
    rcases h2 with ⟨_, h2⟩ | ⟨hfailed, h2⟩
    · exact ⟨_, h2, fun _ => sends_fits he hstate hupstream⟩
    · rw [hfailed]
      exact h2.failed (by decide)
  unfold FileExecutor.upOpened
  rcases ans.fstat with _ | ⟨size, lastModified⟩
  · exact ensures_pure.mpr (h.failed (by decide))
  simp only [FileExecutor.createResponse, FileExecutor.createOkResponse, ensures_bind,
    ensures_modifyData, ensures_getData, ensures_ite, ensures_pure, ensures_setState]
  have h1 : Stands l r w0 s (w.setData l r { w.data l r with bytesToSend := size }) :=
    h.assigned ⟨fun _ => rfl, fun _ => rfl⟩ rfl rfl
  refine ⟨fun _ => (stands_createHeaders _ h1).mono (fun created w2 h2 => ?_),
    fun _ => (stands_createHeaders _ h1).mono (fun created w2 h2 => ?_)⟩
  · exact ⟨fun _ => h2.failed (by decide), fun _ => hwatch h2 (Or.inr (Or.inl rfl))⟩
  · exact ⟨fun _ => h2.failed (by decide), fun _ => hwatch h2 (Or.inl rfl)⟩

/-- The descriptor of the file belongs to a place that is not watched. -/
theorem setFd1_stance (hpoll : w.pollDataAt l r .fd1 = none) (fd : Int) :
    (w.setData l r { w.data l r with fd1 := fd }).stance l r = w.stance l r := by
  have hdata : (w.setData l r { w.data l r with fd1 := fd }).data l r =
      { w.data l r with fd1 := fd } := World.setData_self ..
  refine stance_congr (by rw [hdata]) (by rw [hdata]) (mask_congr ?_ (fun _ => ?_)) ?_
  · rw [World.setData_pollDataAt, if_pos ⟨rfl, rfl⟩]
    rfl
  · rw [World.setData_fdAt, if_pos ⟨rfl, rfl⟩]
    rfl
  · rw [mask_none hpoll, mask_none]
    rw [World.setData_pollDataAt, if_pos ⟨rfl, rfl⟩]
    exact hpoll

/-- A file executor starts from a client and nothing else. -/
theorem fileUp_upped (h : Stands l r w0 s w) (he : s.exec = some .file ∨ s.exec = some .sslFile)
    (halone : (w.data l r).Alone) : Ensures (FileExecutor.up ans l r) w (Upped l r w0) := by
  have hx : s.exec ≠ some .request ∧ s.exec ≠ some .sslRequest := by
    rcases he with he | he <;> rw [he] <;> decide
  simp only [FileExecutor.up, ensures_bind, ensures_modifyData]
  have h1 : Stands l r w0 s (w.setData l r { w.data l r with removeOnTimeout := true }) :=
    h.assigned ⟨fun _ => rfl, fun _ => rfl⟩ rfl rfl
  have halone1 : ((w.setData l r { w.data l r with removeOnTimeout := true }).data l r).Alone := by
    rw [World.setData_self]
    exact halone
  generalize w.setData l r { w.data l r with removeOnTimeout := true } = w1 at h1 halone1
  have hupstream : s.upstream = none := h1.upstream_none.mpr halone1.2
  have hopen : Ensures (newDescriptor ans.openFile false) w1 (fun fd1 w2 =>
      Stands l r w0 s (w2.setData l r { w2.data l r with fd1 := fd1 })) := by
    have hkept : Ensures (newDescriptor ans.openFile false) w1 (fun _ w2 =>
        w2.stance l r = s ∧ w2.pollDataAt l r .fd1 = none) := by
      refine (Ensures.and (keeps_newDescriptor w1 h1.stance)
        (newDescriptor_spec.mono (fun fd1 w2 hnew => ?_))).mono (fun _ _ both => both)
      rcases hnew with ⟨_, rfl⟩ | ⟨_, _, rfl⟩
      · exact halone1.2
      · exact halone1.2
    refine ((FileExecutor.did_newFd1 hx h1.did halone1).and hkept).mono (fun fd1 w2 hboth => ?_)
    exact ⟨hboth.1, (setFd1_stance hboth.2.2 fd1).trans hboth.2.1⟩
  refine hopen.mono (fun fd1 w2 h2 => ?_)
  simp only [ensures_ite, ensures_pure]
  exact ⟨fun _ => ⟨fun _ => upNotFound_upped h2 he hupstream, fun _ => h2.failed (by decide)⟩,
    fun _ => upOpened_upped h2 he hupstream⟩

/-- Headers are sent, and the file follows. -/
theorem processSendHeaders_settled (h : Stands l r w0 s w)
    (he : s.exec = some .file ∨ s.exec = some .sslFile)
    (hstate : s.state = .sendHeaders ∨ s.state = .sendOnlyHeaders)
    (hmask : s.OnlyClient EPOLLOUT)
    (hnot : e.WritesSsl → ¬ (w.data l r).WriteWidens ans) :
    Ensures (FileExecutor.processSendHeaders e ans l r) w (Settled l r w0) := by
  obtain ⟨hclient, hupstream⟩ := hmask
  have hfits : ∀ state, state = .sendHeaders ∨ state = .sendOnlyHeaders ∨ state = .sendFile →
      ({ s with state := state } : Stance).Fits := by
    intro state hsends
    have hsent := sends_fits he hsends hupstream
    rw [← hclient] at hsent
    exact hsent
  have hsame : s.Fits := hfits s.state (hstate.imp_right Or.inl)
  simp only [FileExecutor.processSendHeaders, ensures_bind, ensures_getData]
  cases hwindow : (w.data l r).buffer.startRead with
  | none => exact ensures_pure.mpr (h.settled hsame)
  | some window =>
    simp only [ensures_bind, ensures_ite, ensures_pure]
    refine (stands_writeFd0 h).mono (fun written w1 h1 => ?_)
    rcases h1 with h1 | ⟨hdata, hssl, hneg, hwide⟩
    · refine ⟨fun _ => ⟨fun _ => h1.settled hsame, fun _ => ?_⟩, fun _ => ?_⟩
      · exact (stands_countRetry w1 h1).mono (fun _ _ h2 => h2.settled hsame)
      refine (stands_clearRetries w1 h1).mono (fun _ w2 h2 => ?_)
      rw [ensures_modifyData]
      have h3 : Stands l r w0 s (w2.setData l r { w2.data l r with
          buffer := (w2.data l r).buffer.endRead written.result.toNat }) :=
        h2.assigned ⟨fun _ => rfl, fun _ => rfl⟩ rfl rfl
      generalize w2.setData l r { w2.data l r with
        buffer := (w2.data l r).buffer.endRead written.result.toNat } = w3 at h3
      refine ⟨fun _ => ?_, fun _ => h3.settled hsame⟩
      have h4 : Stands l r w0 s (w3.setData l r { w3.data l r with
          buffer := (w3.data l r).buffer.clear }) :=
        h3.assigned ⟨fun _ => rfl, fun _ => rfl⟩ rfl rfl
      rw [ensures_modifyData, ensures_getData, ensures_setState]
      exact ⟨fun _ => h4.settled hsame,
        fun _ => (stands_setState h4 .sendFile).settled (hfits .sendFile (Or.inr (Or.inr rfl)))⟩
    · refine ⟨fun _ => ⟨fun _ => hwide.stands.leaves (by decide), fun _ => ?_⟩,
        fun hpos => absurd hneg hpos⟩
      rw [ensures_countRetry]
      exact hwide.settled hdata (hwide.retries hwindow rfl (hnot hssl))

theorem processSendFile_settled (h : Stands l r w0 s w) (hfits : s.Fits) :
    Ensures (FileExecutor.processSendFile ans l r) w (Settled l r w0) := by
  refine Preserves.settles (Preserves.bind stands_getData (fun data => ?_)) h hfits
  refine Preserves.bind stands_sendfile (fun sent => ?_)
  refine Preserves.ite ?_ ?_
  · refine Preserves.ite ?_ Preserves.pure
    exact Preserves.bind stands_countRetry (fun _ => Preserves.pure)
  · refine Preserves.bind stands_clearRetries (fun _ => ?_)
    refine Preserves.bind
      (stands_assign (fun _ _ => rfl) (fun _ _ => rfl) (fun _ => rfl) (fun _ => rfl)) (fun _ => ?_)
    refine Preserves.bind stands_getData (fun data => ?_)
    exact Preserves.ite Preserves.pure Preserves.pure

/-! ## Closing the second descriptor -/

theorem close_stance (hb : Booked w) (hpoll : w.pollDataAt l r .fd1 = none) :
    (w.closedAt l r .fd1).stance l r = w.stance l r := by
  have hkernel : (w.setKernel (w.kernel.close (w.fdAt l r .fd1))).stance l r = w.stance l r := by
    refine setKernel_stance (fun place => close_mask (fun _ _ => rfl) (fun hp heq => ?_))
    obtain ⟨p, hslot⟩ := Option.ne_none_iff_exists'.mp hp
    obtain ⟨_, _, rfl⟩ := hb.apart l r place l r .fd1 (hb.watched_positive hslot) heq
    exact hp hpoll
  exact (setFd1_stance (w := w.setKernel (w.kernel.close (w.fdAt l r .fd1))) hpoll (-1)).trans
    hkernel

/-- The second descriptor is neither held nor watched any more. -/
theorem stands_closeFd1 (h : Stands l r w0 s w) (hpos : 0 < (w.data l r).fd1) :
    Ensures (closeFd l r (w.data l r).fd1) w (fun _ w' =>
      Stands l r w0 { s with upstream := none } w') := by
  have hb := h.did.booked
  have hne : (w.data l r).fd1 ≠ (w.data l r).fd0 := fun heq =>
    nomatch (hb.apart l r .fd1 l r .fd0 hpos heq).2.2
  have hend : ∀ w1, Stands l r w0 { s with upstream := none } w1 →
      w1.fdAt l r .fd1 = (w.data l r).fd1 → Stands l r w0 { s with upstream := none }
        ((w1.setKernel (w1.kernel.close (w.data l r).fd1)).setData l r
          { w1.data l r with fd1 := -1 }) := by
    intro w1 h1 hat
    have hpoll : w1.pollDataAt l r .fd1 = none := h1.upstream_none.mp rfl
    rw [← hat]
    exact ⟨h1.did.closed .fd1 hpoll, (close_stance h1.did.booked hpoll).trans h1.stance⟩
  unfold closeFd
  rw [ensures_bind, ensures_getData, if_neg hne, if_pos rfl]
  simp only [ensures_bind, ensures_when, ensures_pure, ensures_close, ensures_modifyData]
  refine ⟨fun hslot => ?_, fun hslot => ?_⟩
  · have hat : w.fdAt l r .fd1 = (w.data l r).fd1 := rfl
    refine ((stands_removePollFd h (Or.inr rfl) hat).and
      (removePollFd_watched .fd1 h.did hslot)).mono (fun result w1 h1 => ?_)
    obtain ⟨hwatched, hzero, _, _, hfd, _⟩ := h1
    rcases hwatched with ⟨_, h1⟩ | ⟨hfailed, _⟩
    · exact hend w1 h1 (hfd .fd1)
    · rw [hfailed] at hzero
      exact absurd hzero (by decide)
  · have hupstream : s.upstream = none := h.upstream_none.mpr (not_not.mp hslot)
    have hsame : ({ s with upstream := none } : Stance) = s := by rw [← hupstream]
    refine hend w ?_ rfl
    rw [hsame]
    exact h

/-- At the end of the file its descriptor is closed, which nobody waits for. -/
theorem stands_readFile (hupstream : s.upstream = none) :
    Preserves (Stands l r w0 s) (SslFileExecutor.readFile ans l r) := by
  intro w h
  simp only [SslFileExecutor.readFile, ensures_bind, ensures_getData, ensures_ite, ensures_pure]
  refine ⟨fun hpos => ?_, fun _ => h⟩
  rcases hstart : (w.data l r).buffer.startWrite with ⟨window, buffer⟩
  simp only [ensures_modifyData]
  have h1 : Stands l r w0 s (w.setData l r { w.data l r with buffer := buffer }) :=
    h.assigned ⟨fun _ => rfl, fun _ => rfl⟩ rfl rfl
  cases window with
  | none => exact ensures_pure.mpr h1
  | some window =>
    simp only [ensures_bind, ensures_ite, ensures_pure, ensures_modifyData]
    refine ((stands_read _ h1).and read_data).mono (fun received w2 h2 => ?_)
    obtain ⟨h2, hdata⟩ := h2
    have hfd1 : (w2.data l r).fd1 = (w.data l r).fd1 := by
      rw [hdata, World.setData_self]
    refine ⟨fun _ => h2, fun _ => ⟨fun _ => ?_, fun _ => ?_⟩⟩
    · rw [← hfd1]
      refine (stands_closeFd1 h2 (by rw [hfd1]; exact hpos)).mono (fun _ w3 h3 => ?_)
      rw [← hupstream] at h3
      exact h3
    · exact h2.assigned ⟨fun _ => rfl, fun _ => rfl⟩ rfl rfl

theorem stands_countOperation {operationOk : Bool} :
    Preserves (Stands l r w0 s) (SslFileExecutor.countOperation l r operationOk) :=
  Preserves.ite stands_clearRetries stands_countRetry

/-- While the file is sent through the SSL library, both events are accepted. -/
theorem sslProcessSendFile_settled (h : Stands l r w0 s w) (he : s.exec = some .sslFile)
    (hstate : s.state = .sendFile) (hupstream : s.upstream = none) (hfits : s.Fits) :
    Ensures (SslFileExecutor.processSendFile ans l r) w (Settled l r w0) := by
  have hwide : (s.watch .fd0 (some (watched (EPOLLIN ||| EPOLLOUT)))).Fits := by
    unfold Stance.Fits
    rw [watch_exec, he]
    exact Or.inr ⟨hstate, rfl, hupstream⟩
  simp only [SslFileExecutor.processSendFile, ensures_bind]
  refine (stands_readFile hupstream w h).mono (fun file w1 h1 => ?_)
  cases file with
  | none => exact ensures_pure.mpr (h1.settled hfits)
  | some operationOk =>
    simp only [ensures_bind, ensures_getData]
    cases (w1.data l r).buffer.startRead with
    | none =>
      simp only [ensures_ite, ensures_pure, ensures_bind]
      exact ⟨fun _ => h1.settled hfits, fun _ =>
        (stands_countOperation w1 h1).mono (fun _ _ h2 => h2.settled hfits)⟩
    | some window =>
      simp only [ensures_bind, ensures_ite, ensures_modifyData, ensures_getData, ensures_pure]
      refine ((stands_sslWrite w1 h1).and sslWrite_data).mono (fun written w2 h2 => ?_)
      obtain ⟨h2, hdata⟩ := h2
      refine ⟨fun _ => ?_, fun _ => ?_⟩
      · have h3 : Stands l r w0 s (w2.setData l r { w2.data l r with
            buffer := (w2.data l r).buffer.endRead written.toNat
            bytesToSend := (w2.data l r).bytesToSend - written }) :=
          h2.assigned ⟨fun _ => rfl, fun _ => rfl⟩ rfl rfl
        exact ⟨fun _ => h3.settled hfits, fun _ =>
          (stands_countOperation _ h3).mono (fun _ _ h4 => h4.settled hfits)⟩
      · cases ans.sslWriteError with
        | wantWrite => exact ensures_pure.mpr (h2.settled hfits)
        | other => exact ensures_pure.mpr (h2.settled hfits)
        | wantRead =>
          simp only [ensures_bind, ensures_ite, ensures_pure]
          have hat : w2.fdAt l r .fd0 = (w1.data l r).fd0 := by
            rw [← hdata]
            rfl
          refine (stands_editPollFd h2 (Or.inl rfl) hat).mono (fun edited w3 h3 => ?_)
          rcases h3 with ⟨_, h3⟩ | ⟨_, h3⟩
          · exact ⟨fun _ => h3.settled hwide, fun _ =>
              (stands_countOperation w3 h3).mono (fun _ _ h4 => h4.settled hwide)⟩
          · exact ⟨fun _ => h3.settled hfits, fun _ =>
              (stands_countOperation w3 h3).mono (fun _ _ h4 => h4.settled hfits)⟩

end

end EpollHttp
