import EpollHttp.HttpRequest.Complete
import EpollHttp.PollLoop.Upheld

/-
The books of a connection whose request is read.

Everything that came from the client lies at the start of the buffer, the parser was called with
growing prefixes of it, and nothing was sent.
-/

namespace EpollHttp

open Program TransferRingBuffer HttpRequest

/-- The data of a connection whose request is read from the object `id0`. -/
structure Reading (id0 : Nat) (d : ExecutorData) (k : Kernel) : Prop where
  client : k.openId? d.fd0 = some id0
  sent : k.sent id0 = []
  buffer : d.buffer.WellFormed
  size : d.buffer.bufSize = ExecutorData.REQUEST_BUFFER_SIZE
  front : d.buffer.readHead = 0
  held : d.buffer.unread = k.taken id0
  session : Session (k.taken id0) d.request
  pipe : d.bytesInPipe = 0
  position : d.filePosition = 0

/-- The bytes were taken from the object, and nothing else changed that a connection sees. -/
structure Took (w : World) (id : Nat) (bytes : Bytes) (w' : World) : Prop where
  data : w'.data = w.data
  opened : ∀ fd, w'.kernel.openId? fd = w.kernel.openId? fd
  taken : w'.kernel.taken id = w.kernel.taken id ++ bytes
  sent : w'.kernel.sent = w.kernel.sent

section
variable {l r id0 : Nat} {w w' : World} {ans : Answers} {d d' : ExecutorData} {k k' : Kernel}
variable {fd : Int} {events : Nat}

/-! ## What leaves the books alone -/

theorem Reading.streams (h : Reading id0 d k) (hk : Kernel.SameStreams k k') :
    Reading id0 d k' := by
  refine ⟨?_, ?_, h.buffer, h.size, h.front, ?_, ?_, h.pipe, h.position⟩
  · rw [hk.openId?]
    exact h.client
  · rw [hk.sent]
    exact h.sent
  · rw [hk.taken]
    exact h.held
  · rw [hk.taken]
    exact h.session

/-- The place `r` of the loop `l` reads a request. -/
def Reads (l r id0 : Nat) (w : World) : Prop := Reading id0 (w.data l r) w.kernel

theorem reads_modifyData {f : ExecutorData → ExecutorData}
    (hf : ∀ d k, Reading id0 d k → Reading id0 (f d) k) :
    Preserves (Reads l r id0) (modifyData l r f) := by
  intro w h
  rw [ensures_modifyData]
  unfold Reads
  rw [World.setData_self]
  exact hf _ _ h

theorem reads_setState {state : ExecutorData.State} :
    Preserves (Reads l r id0) (setState l r state) :=
  reads_modifyData (fun _ _ h =>
    ⟨h.client, h.sent, h.buffer, h.size, h.front, h.held, h.session, h.pipe, h.position⟩)

theorem reads_countRetry : Preserves (Reads l r id0) (countRetry l r) :=
  reads_modifyData (fun _ _ h =>
    ⟨h.client, h.sent, h.buffer, h.size, h.front, h.held, h.session, h.pipe, h.position⟩)

theorem reads_clearRetries : Preserves (Reads l r id0) (clearRetries l r) :=
  reads_modifyData (fun _ _ h =>
    ⟨h.client, h.sent, h.buffer, h.size, h.front, h.held, h.session, h.pipe, h.position⟩)

theorem editPollFd_streams : Ensures (editPollFd ans l r fd events) w (fun _ w' =>
    w'.data = w.data ∧ Kernel.SameStreams w.kernel w'.kernel) := by
  refine editPollFd_spec.mono (fun res w' h => ?_)
  rcases h with ⟨_, p, k, _, hk, rfl⟩ | ⟨_, rfl⟩
  · exact ⟨rfl, .ctlMod hk⟩
  · exact ⟨rfl, .refl _⟩

theorem reads_editPollFd :
    Preserves (Reads l r id0) (editPollFd ans l r fd events) := by
  intro w h
  refine editPollFd_streams.mono (fun _ w' hsame => ?_)
  unfold Reads
  rw [hsame.1]
  exact h.streams hsame.2

/-! ## Reading -/

theorem Took.nothing (hdata : w'.data = w.data) (hk : Kernel.SameStreams w.kernel w'.kernel)
    (id : Nat) : Took w id [] w' := by
  refine ⟨hdata, hk.openId?, ?_, hk.sent⟩
  rw [hk.taken, List.append_nil]

theorem Took.take (w : World) (id : Nat) (bytes : Bytes) :
    Took w id bytes (w.setKernel (w.kernel.take id bytes)) :=
  ⟨rfl, fun _ => rfl, Function.update_self .., rfl⟩

theorem plainReadFd0_spec {id count : Nat}
    (hopen : w.kernel.openId? (w.data l r).fd0 = some id) :
    Ensures (Executor.plainReadFd0 ans l r count) w (fun received w' =>
      Took w id received.bytes w' ∧ received.bytes.length ≤ count ∧
        (received.result ≤ 0 → received.bytes = [])) := by
  simp only [Executor.plainReadFd0, ensures_bind, ensures_getData, read, ensures_getKernel, hopen,
    receive]
  cases ans.read.bytes with
  | none =>
    simp only [ensures_pure]
    exact ⟨.nothing rfl (.refl _) id, Nat.zero_le _, fun _ => trivial⟩
  | some bytes =>
    simp only [ensures_bind, ensures_modifyKernel, ensures_pure]
    refine ⟨.take w id _, List.length_take_le .., fun hnone => List.length_eq_zero_iff.mp ?_⟩
    omega

theorem sslReadFd0_spec {id count : Nat}
    (hopen : w.kernel.openId? (w.data l r).fd0 = some id) :
    Ensures (sslReadFd0 ans l r count) w (fun received w' =>
      Took w id received.bytes w' ∧ received.bytes.length ≤ count ∧
        (received.result ≤ 0 → received.bytes = [])) := by
  have hread : Ensures (sslRead ans (w.data l r).fd0 count) w (fun bytes w' =>
      Took w id bytes w' ∧ bytes.length ≤ count) := by
    rw [sslRead, ensures_bind, ensures_getKernel, hopen]
    cases hbytes : ans.sslRead.take count with
    | nil => exact ensures_pure.mpr ⟨.nothing rfl (.refl _) id, Nat.zero_le _⟩
    | cons c rest =>
      simp only [ensures_bind, ensures_modifyKernel, ensures_pure]
      refine ⟨.take w id _, ?_⟩
      rw [← hbytes]
      exact List.length_take_le ..
  rw [sslReadFd0, ensures_bind, ensures_getData, ensures_bind]
  refine hread.mono (fun bytes w1 h1 => ?_)
  rw [ensures_ite, ensures_pure]
  refine ⟨fun hne => ⟨h1.1, h1.2, fun hnone => List.length_eq_zero_iff.mp ?_⟩, fun hempty => ?_⟩
  · have hnone : (bytes.length : Int) ≤ 0 := hnone
    show bytes.length = 0
    omega
  have hnil : bytes = [] := not_not.mp hempty
  rw [hnil] at h1
  cases ans.sslReadError with
  | wantRead => exact ensures_pure.mpr ⟨h1.1, h1.2, fun _ => rfl⟩
  | other => exact ensures_pure.mpr ⟨h1.1, h1.2, fun _ => rfl⟩
  | wantWrite =>
    simp only [ensures_bind, ensures_ite, ensures_pure]
    refine editPollFd_streams.mono (fun edited w2 hsame => ?_)
    have h2 : Took w id [] w2 := by
      refine ⟨hsame.1.trans h1.1.data, fun fd => (hsame.2.openId? fd).trans (h1.1.opened fd), ?_,
        hsame.2.sent.trans h1.1.sent⟩
      rw [hsame.2.taken]
      exact h1.1.taken
    exact ⟨fun _ => ⟨h2, Nat.zero_le _, fun _ => trivial⟩,
      fun _ => ⟨h2, Nat.zero_le _, fun _ => trivial⟩⟩

theorem readFd0_spec {id count : Nat} (e : Executor)
    (hopen : w.kernel.openId? (w.data l r).fd0 = some id) :
    Ensures (e.readFd0 ans l r count) w (fun received w' =>
      Took w id received.bytes w' ∧ received.bytes.length ≤ count ∧
        (received.result ≤ 0 → received.bytes = [])) := by
  cases e with
  | sslRequest => exact sslReadFd0_spec hopen
  | _ => exact plainReadFd0_spec hopen

/-- What came is stored behind what came before. -/
theorem reads_readRequest (e : Executor) :
    Preserves (Reads l r id0) (RequestExecutor.readRequest e ans l r) := by
  intro w h
  rw [RequestExecutor.readRequest, ensures_bind, ensures_getData]
  obtain ⟨hwf, hunread, hbuf, hread, _⟩ := startWrite_snd h.buffer
  have hsize : (w.data l r).buffer.startWrite.2.bufSize = (w.data l r).buffer.bufSize :=
    congrArg List.length hbuf
  -- The write head is wrapped only behind a read head that moved.
  have hwrapped : Reads l r id0 (w.setData l r { w.data l r with
      buffer := (w.data l r).buffer.startWrite.2 }) := by
    unfold Reads
    rw [World.setData_self]
    exact ⟨h.client, h.sent, hwf, hsize.trans h.size, hread.trans h.front, hunread.trans h.held,
      h.session, h.pipe, h.position⟩
  dsimp only
  rw [ensures_bind, ensures_modifyData]
  cases hwindow : (w.data l r).buffer.startWrite.1 with
  | none => exact ensures_pure.mpr hwrapped
  | some window =>
    have hfree := startWrite_some h.buffer hwindow
    rw [ensures_bind]
    refine (readFd0_spec e hwrapped.client).mono (fun received w1 h1 => ?_)
    obtain ⟨htook, hcount, hnone⟩ := h1
    have hdata1 : w1.data l r = { w.data l r with
        buffer := (w.data l r).buffer.startWrite.2 } := by
      rw [htook.data, World.setData_self]
    have hfd0 : w1.kernel.openId? (w.data l r).fd0 = some id0 := by
      rw [htook.opened]
      exact h.client
    have hsent : w1.kernel.sent id0 = [] := by
      rw [htook.sent]
      exact h.sent
    have htaken : w1.kernel.taken id0 = w.kernel.taken id0 ++ received.bytes := htook.taken
    rw [ensures_ite]
    refine ⟨fun hfailed => ?_, fun _ => ?_⟩
    · have hsame : Reads l r id0 w1 := by
        unfold Reads
        rw [hnone hfailed, List.append_nil] at htaken
        rw [hdata1]
        refine ⟨hfd0, hsent, hwf, hsize.trans h.size, hread.trans h.front, ?_, ?_, h.pipe,
          h.position⟩
        · rw [htaken]
          exact hunread.trans h.held
        · rw [htaken]
          exact h.session
      exact Preserves.ite Preserves.pure (Preserves.bind reads_countRetry
        (fun _ => Preserves.pure)) w1 hsame
    · rw [ensures_bind, ensures_modifyData]
      refine Preserves.bind reads_clearRetries (fun _ => Preserves.pure) _ ?_
      unfold Reads
      rw [World.setData_self, hdata1]
      obtain ⟨hwf', hunread'⟩ := fill_endWrite hwf hfree hcount
      obtain ⟨hread', _, hsize'⟩ :=
        fill_heads (w.data l r).buffer.startWrite.2 window.start received.bytes
      refine ⟨hfd0, hsent, hwf', (hsize'.trans hsize).trans h.size,
        (hread'.trans hread).trans h.front,
        ?_, ?_, h.pipe, h.position⟩
      · show ((((w.data l r).buffer.startWrite.2).fill window.start received.bytes).endWrite
          received.bytes.length).unread = w1.kernel.taken id0
        rw [htaken, hunread', hunread, h.held]
      · show Session (w1.kernel.taken id0) (w.data l r).request
        rw [htaken]
        exact h.session.append received.bytes

/-- Only the proxy is assigned. -/
theorem dispatchRequest_keeps {request : HttpRequest} :
    Ensures (RequestExecutor.dispatchRequest l r request) w (fun _ w' =>
      w'.kernel = w.kernel ∧ ∃ proxy, w'.data l r = { w.data l r with proxy := proxy }) := by
  have hloop : ∀ b : Bytes, (w.setLoop l { w.loops l with fileNameBuffer := b }).data l r =
      w.data l r := by
    intro b
    rw [World.setLoop_data]
    exact fun _ => rfl
  rw [RequestExecutor.dispatchRequest, ensures_bind, ensures_getData, ensures_bind, ensures_get]
  cases RequestExecutor.findProxy w.parameters.proxies request with
  | some proxy =>
    simp only [ensures_ite, ensures_pure, ensures_bind, ensures_modifyData, World.setData_self]
    exact ⟨fun _ => ⟨trivial, _, rfl⟩, fun _ => ⟨rfl, some proxy, rfl⟩⟩
  | none =>
    cases request.getUrl with
    | none => exact ensures_pure.mpr ⟨rfl, _, rfl⟩
    | some url =>
      simp only [RequestExecutor.nameFile, RequestExecutor.appendFileName, ensures_bind,
        ensures_modifyLoop, ensures_ite, ensures_getLoop, ensures_pure, World.setLoop_self,
        RequestExecutor.setLoop_setLoop, hloop]
      exact ⟨fun _ => ⟨rfl, _, rfl⟩, fun _ => ⟨fun _ => ⟨rfl, _, rfl⟩, fun _ => ⟨rfl, _, rfl⟩⟩⟩

/-- The parser is given everything that came, and finishes with the last byte of it. -/
theorem reads_parseRequest (h : Reads l r id0 w) :
    Ensures (RequestExecutor.parseRequest l r) w (fun result w' => Reads l r id0 w' ∧
      (result = .file ∨ result = .proxy →
        Complete (w'.kernel.taken id0) (w'.data l r).request)) := by
  rw [RequestExecutor.parseRequest, ensures_bind, ensures_getData]
  cases hstart : (w.data l r).buffer.startRead with
  | none =>
    refine ensures_pure.mpr ⟨h, fun hne => ?_⟩
    rcases hne with hne | hne <;> cases hne
  | some window =>
    have hwindow := startRead_some h.buffer hstart
    have hfront : (w.data l r).buffer.readHead ≤ (w.data l r).buffer.writeHead := by
      rw [h.front]
      exact Nat.zero_le _
    have hall := startRead_size h.buffer hfront hstart
    have hslice : (w.data l r).buffer.slice window.start (window.start + window.size) =
        w.kernel.taken id0 := by
      rw [hwindow.slice_eq h.buffer (Nat.le_refl _), hall, List.take_length, h.held]
    dsimp only
    rw [hslice]
    rcases hparse : (w.data l r).request.parse (w.kernel.taken id0) with _ | ⟨result, request⟩
    · exact ensures_fail.mpr trivial
    dsimp only
    rw [ensures_bind, ensures_modifyData]
    have hsession : Session (w.kernel.taken id0) request := by
      have hall : Parses (w.data l r).request
          ((w.kernel.taken id0).take (w.kernel.taken id0).length) result request := by
        rw [List.take_length]
        exact ⟨_, hparse⟩
      exact h.session.call h.session.size_le (Nat.le_refl _) hall
    have hnext : Reads l r id0 (w.setData l r { w.data l r with request := request }) := by
      unfold Reads
      rw [World.setData_self]
      exact ⟨h.client, h.sent, h.buffer, h.size, h.front, h.held, hsession, h.pipe, h.position⟩
    cases result with
    | needMoreData =>
      refine ensures_pure.mpr ⟨hnext, fun hne => ?_⟩
      rcases hne with hne | hne <;> cases hne
    | finishInvalid =>
      refine ensures_pure.mpr ⟨hnext, fun hne => ?_⟩
      rcases hne with hne | hne <;> cases hne
    | finishOk =>
      have hcomplete := h.session.complete hparse
      refine dispatchRequest_keeps.mono (fun result w2 h2 => ?_)
      obtain ⟨hkernel, proxy, hdata⟩ := h2
      unfold Reads at hnext ⊢
      rw [World.setData_self] at hnext hdata
      rw [hdata, hkernel]
      exact ⟨⟨hnext.client, hnext.sent, hnext.buffer, hnext.size, hnext.front, hnext.held,
        hnext.session, hnext.pipe, hnext.position⟩, fun _ => hcomplete⟩

/-! ## The handshake -/

theorem reads_getData {α : Type} {f : ExecutorData → Prog α}
    (hf : ∀ d, Preserves (Reads l r id0) (f d)) :
    Preserves (Reads l r id0) (getData l r >>= f) := by
  intro w h
  rw [ensures_bind, ensures_getData]
  exact hf _ w h

theorem reads_handleHandshake :
    Preserves (Reads l r id0) (SslRequestExecutor.handleHandshake ans l r false) := by
  have hwatch : ∀ events, Preserves (Reads l r id0)
      (SslRequestExecutor.watchHandshake ans l r false events) := fun events =>
    reads_getData (fun d => Preserves.bind reads_editPollFd (fun _ => Preserves.pure))
  unfold SslRequestExecutor.handleHandshake
  cases ans.sslDoHandshake with
  | none => exact Preserves.pure
  | some error =>
    cases error with
    | wantWrite => exact hwatch EPOLLOUT
    | wantRead => exact hwatch EPOLLIN
    | other => exact Preserves.pure

theorem reads_processHandshake :
    Preserves (Reads l r id0) (SslRequestExecutor.processHandshake ans l r) := by
  refine Preserves.bind reads_handleHandshake (fun result => ?_)
  cases result with
  | ok =>
    refine reads_getData (fun d => Preserves.bind reads_editPollFd (fun edited => ?_))
    exact Preserves.ite Preserves.pure (Preserves.bind reads_setState (fun _ => Preserves.pure))
  | again => exact Preserves.bind reads_countRetry (fun _ => Preserves.pure)
  | error => exact Preserves.pure

end

end EpollHttp
