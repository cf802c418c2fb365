import EpollHttp.Executors.AttentiveProxies

/-
Reading a request leaves stances that fit, and so does the executor that answers it.

A handshake accepts both events.  Behind it the client is watched for `EPOLLIN`, until `SSL_read`
asks for a write.  With the files and the proxies, this covers every call of `process`.
-/

namespace EpollHttp

open Program

section
variable {ans : Answers} {w0 w w' : World} {l r : Nat} {s : Stance} {e : Executor} {fd : Int}
variable {events : Nat}

/-- The client is watched for both events. -/
def Stance.widened (s : Stance) : Stance :=
  s.watch .fd0 (some (watched (EPOLLIN ||| EPOLLOUT)))

/-! ## Reading -/

theorem stands_sslReadFd0 {count : Nat} (h : Stands l r w0 s w) :
    Ensures (sslReadFd0 ans l r count) w (fun received w' => w'.data l r = w.data l r ∧
      (Stands l r w0 s w' ∨ (received.result = -1 ∧ ans.sslReadError = .wantWrite ∧
        ans.epollMod = true ∧ ans.sslRead.take count = [] ∧ Stands l r w0 s.widened w'))) := by
  simp only [sslReadFd0, ensures_bind, ensures_getData]
  have hread : Ensures (sslRead ans (w.data l r).fd0 count) w (fun bytes w1 =>
      Stands l r w0 s w1 ∧ w1.data l r = w.data l r ∧
        (bytes = [] → w1.kernel.openId? (w.data l r).fd0 ≠ none →
          ans.sslRead.take count = [])) := by
    refine (stands_sslRead w h).and ?_ |>.mono (fun _ _ both => both)
    simp only [sslRead, ensures_bind, ensures_getKernel]
    cases hopen : w.kernel.openId? (w.data l r).fd0 with
    | none => exact ensures_pure.mpr ⟨rfl, fun _ hne => absurd hopen hne⟩
    | some id =>
      cases hbytes : ans.sslRead.take count with
      | nil => exact ensures_pure.mpr ⟨rfl, fun _ _ => rfl⟩
      | cons c rest =>
        simp only [ensures_bind, ensures_modifyKernel, ensures_pure]
        exact ⟨rfl, fun hnil => absurd hnil (List.cons_ne_nil c rest)⟩
  refine hread.mono (fun bytes w1 h1 => ?_)
  obtain ⟨h1, hdata, hnone⟩ := h1
  rw [ensures_ite, ensures_pure]
  refine ⟨fun _ => ⟨hdata, Or.inl h1⟩, fun hempty => ?_⟩
  have hbytes := hnone (not_not.mp hempty)
  cases herror : ans.sslReadError with
  | wantRead => exact ensures_pure.mpr ⟨hdata, Or.inl h1⟩
  | other => exact ensures_pure.mpr ⟨hdata, Or.inl h1⟩
  | wantWrite =>
    simp only [ensures_bind, ensures_ite, ensures_pure]
    have hat : w1.fdAt l r .fd0 = (w.data l r).fd0 := congrArg ExecutorData.fd0 hdata
    refine ((stands_editPollFd h1 (Or.inl rfl) hat).and (editPollFd_facts h1.did.booked)).mono
      (fun edited w2 h2 => ?_)
    obtain ⟨hwatched, hdata2, hfacts⟩ := h2
    rcases hwatched with ⟨hzero, h2⟩ | ⟨_, h2⟩
    · obtain ⟨hmod, _, hopen⟩ := hfacts hzero
      exact ⟨fun _ => ⟨hdata2.trans hdata, Or.inr ⟨trivial, trivial, hmod, hbytes hopen, h2⟩⟩,
        fun _ => ⟨hdata2.trans hdata, Or.inr ⟨trivial, trivial, hmod, hbytes hopen, h2⟩⟩⟩
    · exact ⟨fun _ => ⟨hdata2.trans hdata, Or.inl h2⟩, fun _ => ⟨hdata2.trans hdata, Or.inl h2⟩⟩

namespace RequestExecutor

/-- The stance is the one that the reading of a request found, or there is no retry left. -/
theorem readRequest_reads (he : e = .request ∨ e = .sslRequest) (h : Stands l r w0 s w)
    (hnot : e = .sslRequest → ¬ SslRequestExecutor.Widens ans (w.data l r)) :
    Ensures (readRequest e ans l r) w (fun code w' =>
      ∃ s', Stands l r w0 s' w' ∧ s'.exec = s.exec ∧ (code = 0 →
        s' = s ∨ ExecutorData.MAX_RETRY_COUNTER < (w'.data l r).retryCounter)) := by
  simp only [readRequest, ensures_bind, ensures_getData]
  rcases hstart : (w.data l r).buffer.startWrite with ⟨window, buffer⟩
  simp only [ensures_modifyData]
  have h1 : Stands l r w0 s (w.setData l r { w.data l r with buffer := buffer }) :=
    h.assigned ⟨fun _ => rfl, fun _ => rfl⟩ rfl rfl
  have hdata1 : (w.setData l r { w.data l r with buffer := buffer }).data l r =
      { w.data l r with buffer := buffer } := World.setData_self ..
  generalize w.setData l r { w.data l r with buffer := buffer } = w1 at h1 hdata1
  cases window with
  | none => exact ensures_pure.mpr ⟨s, h1, rfl, fun _ => Or.inl rfl⟩
  | some window =>
    simp only [ensures_bind, ensures_ite, ensures_pure, ensures_modifyData]
    -- A mask that is widened is widened for the last time.
    have hread : Ensures (e.readFd0 ans l r window.size) w1 (fun received w2 =>
        Stands l r w0 s w2 ∨ (received.result = -1 ∧ Stands l r w0 s.widened w2 ∧
          ExecutorData.MAX_RETRY_COUNTER < (w2.data l r).retryCounter + 1)) := by
      rcases he with rfl | rfl
      · exact (stands_plainReadFd0 w1 h1).mono (fun _ _ h2 => Or.inl h2)
      · refine (stands_sslReadFd0 h1).mono (fun received w2 h2 => ?_)
        obtain ⟨hdata, h2 | ⟨hresult, herror, hmod, hbytes, h2⟩⟩ := h2
        · exact Or.inl h2
        · refine Or.inr ⟨hresult, h2, ?_⟩
          rw [hdata, hdata1]
          by_contra hle
          refine hnot rfl ⟨herror, hmod, Nat.lt_of_not_le (fun hge => hle ?_), window, ?_, hbytes⟩
          · exact Nat.lt_succ_of_le hge
          · rw [hstart]
            rfl
    refine hread.mono (fun received w2 h2 => ?_)
    rcases h2 with h2 | ⟨hresult, h2, hretries⟩
    · refine ⟨fun _ => ⟨fun _ => ⟨s, h2, rfl, fun _ => Or.inl rfl⟩, fun _ => ?_⟩, fun _ => ?_⟩
      · exact (stands_countRetry w2 h2).mono (fun _ _ h3 => ⟨s, h3, rfl, fun _ => Or.inl rfl⟩)
      · have h3 : Stands l r w0 s (w2.setData l r { w2.data l r with
            buffer := ((w2.data l r).buffer.fill window.start received.bytes).endWrite
              received.bytes.length }) :=
          h2.assigned ⟨fun _ => rfl, fun _ => rfl⟩ rfl rfl
        exact (stands_clearRetries _ h3).mono (fun _ _ h4 =>
          ⟨s, h4, rfl, fun _ => Or.inl rfl⟩)
    · refine ⟨fun _ => ⟨fun _ => ?_, fun _ => ?_⟩, fun hpos => ?_⟩
      · exact ⟨_, h2, rfl, fun hzero => absurd hzero (by decide)⟩
      · rw [ensures_countRetry]
        refine ⟨_, ensures_countRetry.mp (stands_countRetry w2 h2), rfl, fun _ => Or.inr ?_⟩
        rw [World.setData_self]
        exact hretries
      · rw [hresult] at hpos
        exact absurd (by decide) hpos

/-! ## Parsing -/

/-- The stance and the count of the retries. -/
def Parsing (l r : Nat) (s : Stance) (retryCounter : Nat) (w : World) : Prop :=
  Stanced l r s w ∧ (w.data l r).retryCounter = retryCounter

theorem parsing_name {retryCounter : Nat} (f : PollLoop → Bytes) :
    Preserves (Parsing l r s retryCounter)
      (modifyLoop l (fun loop => { loop with fileNameBuffer := f loop })) := by
  intro w h
  refine ensures_modifyLoop.mpr ⟨Eq.trans (setLoop_stance (fun _ => ?_) l r) h.1, ?_⟩
  · rfl
  · unfold World.data
    rw [World.setLoop_self]
    exact h.2

theorem parsing_assign {retryCounter : Nat} {f : ExecutorData → ExecutorData}
    (hfd : ∀ d place, (f d).fdAt place = d.fdAt place)
    (hpoll : ∀ d place, (f d).pollDataAt place = d.pollDataAt place)
    (hexec : ∀ d, (f d).pExecutor = d.pExecutor) (hstate : ∀ d, (f d).state = d.state)
    (hretries : ∀ d, (f d).retryCounter = d.retryCounter) :
    Preserves (Parsing l r s retryCounter) (modifyData l r f) := by
  intro w h
  refine ensures_modifyData.mpr ⟨?_, ?_⟩
  · unfold Stanced
    rw [setData_stance (hfd _ .fd0) (hfd _ .fd1) (hpoll _ .fd0) (hpoll _ .fd1), hexec, hstate]
    exact h.1
  · rw [World.setData_self, hretries]
    exact h.2

theorem parsing_nameFile {retryCounter : Nat} {url : Bytes} :
    Preserves (Parsing l r s retryCounter) (nameFile l url) := by
  refine Preserves.bind (parsing_name _) (fun _ => ?_)
  refine Preserves.ite (Preserves.bind (parsing_name _) (fun _ => Preserves.pure)) ?_
  refine Preserves.bind (fun w h => ensures_getLoop.mpr h) (fun loop => ?_)
  exact Preserves.ite (Preserves.bind (parsing_name _) (fun _ => Preserves.pure)) Preserves.pure

theorem parsing_dispatchRequest {retryCounter : Nat} {request : HttpRequest} :
    Preserves (Parsing l r s retryCounter) (dispatchRequest l r request) := by
  refine Preserves.bind (fun w h => ensures_getData.mpr h) (fun data => ?_)
  refine Preserves.bind Preserves.get (fun w => ?_)
  cases findProxy w.parameters.proxies request with
  | some proxy =>
    refine Preserves.ite Preserves.pure ?_
    exact Preserves.bind (parsing_assign (fun _ _ => rfl) (fun _ _ => rfl) (fun _ => rfl)
      (fun _ => rfl) (fun _ => rfl)) (fun _ => Preserves.pure)
  | none =>
    cases request.getUrl with
    | none => exact Preserves.pure
    | some url => exact parsing_nameFile

/-- Parsing keeps the stance and counts no retry. -/
theorem stands_parseRequest (h : Stands l r w0 s w) :
    Ensures (parseRequest l r) w (fun _ w' => Stands l r w0 s w' ∧
      (w'.data l r).retryCounter = (w.data l r).retryCounter) := by
  have hparsing : Preserves (Parsing l r s (w.data l r).retryCounter) (parseRequest l r) := by
    refine Preserves.bind (fun w h => ensures_getData.mpr h) (fun data => ?_)
    cases data.buffer.startRead with
    | none => exact Preserves.pure
    | some window =>
      dsimp only
      rcases data.request.parse (data.buffer.slice window.start (window.start + window.size)) with
        _ | ⟨result, request⟩
      · exact Preserves.fail
      refine Preserves.bind (parsing_assign (fun _ _ => rfl) (fun _ _ => rfl) (fun _ => rfl)
        (fun _ => rfl) (fun _ => rfl)) (fun _ => ?_)
      cases result with
      | finishOk => exact parsing_dispatchRequest
      | needMoreData => exact Preserves.pure
      | finishInvalid => exact Preserves.pure
  exact ((did_parseRequest w h.did).and (hparsing w ⟨h.stance, rfl⟩)).mono
    (fun _ _ both => ⟨⟨both.1, both.2.1⟩, both.2.2⟩)

/-! ## Answering -/

/-- The executors that answer a request. -/
def Answering (e : Executor) : Prop := e = .file ∨ e = .sslFile ∨ e.Proxies

theorem setExecutor_settled (he : Answering e) (h : Stands l r w0 s w)
    (halone : (w.data l r).Alone) : Ensures (setExecutor e ans l r) w (Settled l r w0) := by
  have h1 : Stands l r w0 { s with exec := some e }
      (w.setData l r { w.data l r with pExecutor := some e }) := by
    refine ⟨h.did.become (d := { w.data l r with pExecutor := some e })
      ⟨fun _ => rfl, fun _ => rfl⟩ (fun _ => halone), ?_⟩
    unfold Stanced
    rw [setData_stance (d := { w.data l r with pExecutor := some e }) rfl rfl rfl rfl, h.state,
      h.stance]
  have halone1 : ((w.setData l r { w.data l r with pExecutor := some e }).data l r).Alone := by
    rw [World.setData_self]
    exact halone
  have hup : Ensures (upAnswering e ans l r)
      (w.setData l r { w.data l r with pExecutor := some e }) (Upped l r w0) := by
    rcases he with rfl | rfl | he
    · exact fileUp_upped h1 (Or.inl rfl) halone1
    · exact fileUp_upped h1 (Or.inr rfl) halone1
    · have hproxy : ({ s with exec := some e } : Stance).Proxied := ⟨e, rfl, he⟩
      rcases he with rfl | rfl | rfl
      · exact ProxyExecutor.up_upped h1 hproxy halone1
      · exact ProxyExecutor.up_upped h1 hproxy halone1
      · exact ProxyExecutor.up_upped h1 hproxy halone1
  simp only [setExecutor, ensures_bind, ensures_modifyData, ensures_ite, ensures_pure]
  refine hup.mono (fun result w2 h2 => ?_)
  obtain ⟨s', hs', hfits⟩ := h2
  exact ⟨fun _ => hs'.leaves (by decide), fun hok => hs'.settled (hfits (not_not.mp hok))⟩

/-- The request is answered, or the client is watched for more of it. -/
theorem processReadRequest_settled {fileType proxyType : ExecutorType}
    (he : e = .request ∨ e = .sslRequest)
    (hfile : Answering (PollLoop.getExecutor fileType))
    (hproxy : Answering (PollLoop.getExecutor proxyType)) (h : Stands l r w0 s w)
    (hexec : s.exec = some .request ∨ s.exec = some .sslRequest) (hfits : s.Fits)
    (hnot : e = .sslRequest → ¬ SslRequestExecutor.Widens ans (w.data l r)) :
    Ensures (processReadRequest e fileType proxyType ans l r) w (Settled l r w0) := by
  simp only [processReadRequest, ensures_bind, ensures_ite, ensures_pure]
  refine (readRequest_reads he h hnot).mono (fun code w1 h1 => ?_)
  obtain ⟨s1, hs1, hexec1, hreads⟩ := h1
  refine ⟨fun _ => hs1.leaves (by decide), fun hcode => ?_⟩
  refine (stands_parseRequest hs1).mono (fun result w2 h2 => ?_)
  obtain ⟨h2, hretries⟩ := h2
  have halone : (w2.data l r).Alone := by
    refine (h2.did.booked.loops l).alone r ?_
    unfold ExecutorData.Requester
    rw [h2.exec, hexec1]
    exact hexec
  cases result with
  | file => exact setExecutor_settled hfile h2 halone
  | proxy => exact setExecutor_settled hproxy h2 halone
  | invalid => exact ensures_pure.mpr (h2.leaves (by decide))
  | again =>
    refine ensures_pure.mpr ⟨s1, h2, fun _ => ?_⟩
    rw [hretries]
    rcases hreads (not_not.mp hcode) with rfl | hmax
    · exact Or.inl hfits
    · exact Or.inr hmax

/-! ## The beginning of a connection -/

theorem stands_prepare {connectionType : Nat} :
    Preserves (Stands l r w0 s) (prepare l r connectionType) := by
  unfold prepare
  -- The new buffer is long, and nothing depends on what is in it.
  generalize List.replicate ExecutorData.REQUEST_BUFFER_SIZE (0 : UInt8) = bytes
  exact stands_assign (fun _ _ => rfl) (fun _ _ => rfl) (fun _ => rfl) (fun _ => rfl)

/-- The client is watched for a request. -/
theorem reads_fits (hexec : s.exec = some .request ∨ s.exec = some .sslRequest)
    (hupstream : s.upstream = none) :
    ({ s.watch .fd0 (some (watched EPOLLIN)) with state := .readRequest } : Stance).Fits := by
  unfold Stance.Fits
  rcases hexec with hexec | hexec
  · rw [show (s.watch .fd0 (some (watched EPOLLIN))).exec = some .request from hexec]
    exact ⟨rfl, rfl, hupstream⟩
  · rw [show (s.watch .fd0 (some (watched EPOLLIN))).exec = some .sslRequest from hexec]
    exact Or.inr ⟨rfl, rfl, hupstream⟩

theorem up_upped (h : Stands l r w0 s w) (hexec : s.exec = some .request)
    (hupstream : s.upstream = none) : Ensures (up ans l r) w (Upped l r w0) := by
  simp only [up, ensures_bind, ensures_getData, ensures_ite, ensures_pure, ensures_setState]
  refine (stands_prepare w h).mono (fun _ w1 h1 => ?_)
  have hat : w1.fdAt l r .fd0 = (w1.data l r).fd0 := rfl
  refine (stands_addPollFd h1 (Or.inl rfl) hat).mono (fun added w2 h2 => ?_)
  rcases h2 with ⟨hzero, h2⟩ | ⟨hfailed, h2⟩
  · exact ⟨fun hne => absurd hzero hne, fun _ =>
      ⟨_, stands_setState h2 _, fun _ => reads_fits (Or.inl hexec) hupstream⟩⟩
  · exact ⟨fun _ => h2.failed (by decide), fun hzero => absurd (by rw [hfailed]; decide) hzero⟩

end RequestExecutor

namespace SslRequestExecutor

open RequestExecutor

/-- The stance of a handshake, whatever the client is watched for. -/
def Shakes (s : Stance) : Prop := s.exec = some .sslRequest ∧ s.upstream = none

theorem Shakes.fits (h : Shakes s) : ({ s with state := .sslHandshake } : Stance).Fits := by
  unfold Stance.Fits
  rw [h.1]
  exact Or.inl ⟨rfl, h.2⟩

theorem shakes_maskSet {mask : Option Nat} {code : Int}
    (hset : MaskSet l r w0 s .fd0 mask code w) (hshakes : Shakes s) :
    ∃ s', Stands l r w0 s' w ∧ Shakes s' ∧ s'.state = s.state := by
  rcases hset with ⟨_, h⟩ | ⟨_, h⟩
  · exact ⟨_, h, hshakes, rfl⟩
  · exact ⟨s, h, hshakes, rfl⟩

theorem watchHandshake_shakes {firstTime : Bool} {events : Nat} (h : Stands l r w0 s w)
    (hshakes : Shakes s) : Ensures (watchHandshake ans l r firstTime events) w (fun _ w' =>
      ∃ s', Stands l r w0 s' w' ∧ Shakes s' ∧ s'.state = s.state) := by
  simp only [watchHandshake, ensures_bind, ensures_getData, ensures_ite, ensures_pure]
  have hat : w.fdAt l r .fd0 = (w.data l r).fd0 := rfl
  exact ⟨fun _ => (stands_addPollFd h (Or.inl rfl) hat).mono
      (fun _ _ hset => shakes_maskSet hset hshakes),
    fun _ => (stands_editPollFd h (Or.inl rfl) hat).mono
      (fun _ _ hset => shakes_maskSet hset hshakes)⟩

/-- A handshake that is over leaves the masks alone. -/
theorem handleHandshake_shakes {firstTime : Bool} (h : Stands l r w0 s w) (hshakes : Shakes s) :
    Ensures (handleHandshake ans l r firstTime) w (fun _ w' =>
      ∃ s', Stands l r w0 s' w' ∧ Shakes s' ∧ s'.state = s.state) := by
  unfold handleHandshake
  cases ans.sslDoHandshake with
  | none => exact ensures_pure.mpr ⟨s, h, hshakes, rfl⟩
  | some error =>
    cases error with
    | wantWrite => exact watchHandshake_shakes h hshakes
    | wantRead => exact watchHandshake_shakes h hshakes
    | other => exact ensures_pure.mpr ⟨s, h, hshakes, rfl⟩

theorem stands_sslInit : Preserves (Stands l r w0 s) (sslInit ans l r) := by
  refine Preserves.ite ?_ Preserves.pure
  exact Preserves.bind
    (stands_assign (fun _ _ => rfl) (fun _ _ => rfl) (fun _ => rfl) (fun _ => rfl))
    (fun _ => Preserves.pure)

theorem up_upped (h : Stands l r w0 s w) (hshakes : Shakes s) :
    Ensures (up ans l r) w (Upped l r w0) := by
  simp only [up, ensures_bind, ensures_ite, ensures_pure]
  refine (stands_prepare w h).mono (fun _ w1 h1 => ?_)
  refine (stands_sslInit w1 h1).mono (fun inited w2 h2 => ?_)
  refine ⟨fun _ => h2.failed (by decide), fun _ => ?_⟩
  simp only [upHandshake, ensures_bind]
  refine (handleHandshake_shakes h2 hshakes).mono (fun result w3 h3 => ?_)
  obtain ⟨s3, h3, hshakes3, _⟩ := h3
  cases result with
  | ok =>
    simp only [ensures_bind, ensures_getData, ensures_ite, ensures_pure, ensures_setState]
    have hat : w3.fdAt l r .fd0 = (w3.data l r).fd0 := rfl
    refine (stands_addPollFd h3 (Or.inl rfl) hat).mono (fun added w4 h4 => ?_)
    rcases h4 with ⟨hzero, h4⟩ | ⟨hfailed, h4⟩
    · exact ⟨fun hne => absurd hzero hne, fun _ =>
        ⟨_, stands_setState h4 _, fun _ => reads_fits (Or.inr hshakes3.1) hshakes3.2⟩⟩
    · exact ⟨fun _ => h4.failed (by decide), fun hzero => absurd (by rw [hfailed]; decide) hzero⟩
  | again =>
    simp only [ensures_bind, ensures_setState, ensures_pure]
    exact ⟨_, stands_setState h3 _, fun _ => hshakes3.fits⟩
  | error => exact ensures_pure.mpr (h3.failed (by decide))

/-- Both events go on with the handshake. -/
theorem processHandshake_settled (h : Stands l r w0 s w) (hshakes : Shakes s)
    (hstate : s.state = .sslHandshake) :
    Ensures (processHandshake ans l r) w (Settled l r w0) := by
  simp only [processHandshake, ensures_bind]
  refine (handleHandshake_shakes h hshakes).mono (fun result w1 h1 => ?_)
  obtain ⟨s1, h1, hshakes1, hstate1⟩ := h1
  cases result with
  | ok =>
    simp only [ensures_bind, ensures_getData, ensures_ite, ensures_pure, ensures_setState]
    have hat : w1.fdAt l r .fd0 = (w1.data l r).fd0 := rfl
    refine (stands_editPollFd h1 (Or.inl rfl) hat).mono (fun edited w2 h2 => ?_)
    rcases h2 with ⟨hzero, h2⟩ | ⟨hfailed, h2⟩
    · exact ⟨fun hne => absurd hzero hne, fun _ =>
        (stands_setState h2 _).settled (reads_fits (Or.inr hshakes1.1) hshakes1.2)⟩
    · exact ⟨fun _ => h2.leaves (by decide), fun hzero => absurd (by rw [hfailed]; decide) hzero⟩
  | again =>
    simp only [ensures_bind, ensures_pure]
    have hfits : s1.Fits := by
      have hsame : ({ s1 with state := .sslHandshake } : Stance) = s1 := by
        rw [← hstate1.trans hstate]
      rw [← hsame]
      exact hshakes1.fits
    exact (stands_countRetry w1 h1).mono (fun _ _ h2 => h2.settled hfits)
  | error => exact ensures_pure.mpr (h1.leaves (by decide))

end SslRequestExecutor

/-! ## A call of `process` -/

theorem FileExecutor.process_settled (h : Stands l r w0 s w)
    (he : s.exec = some .file ∨ s.exec = some .sslFile)
    (honly : s.state = .sendHeaders ∨ s.state = .sendOnlyHeaders → s.OnlyClient EPOLLOUT)
    (hfits : s.Fits)
    (hnot : e.WritesSsl → (w.data l r).state = .sendHeaders ∨ (w.data l r).state = .sendOnlyHeaders →
      fd = (w.data l r).fd0 → hasEvent events EPOLLOUT → ¬ (w.data l r).WriteWidens ans) :
    Ensures (FileExecutor.process e ans l r fd events) w (Settled l r w0) := by
  simp only [FileExecutor.process, ensures_bind, ensures_getData, ensures_ite, ensures_pure]
  refine ⟨fun hheaders => ?_, fun _ => ⟨fun _ => ?_, fun _ => h.leaves (by decide)⟩⟩
  · obtain ⟨hstate, hfd, hout⟩ := hheaders
    have hsends : s.state = .sendHeaders ∨ s.state = .sendOnlyHeaders := by
      rw [← h.state]
      exact hstate
    exact processSendHeaders_settled h he hsends (honly hsends)
      (fun hssl => hnot hssl hstate hfd hout)
  · exact processSendFile_settled h hfits

theorem ProxyExecutor.process_settled {handlers : ProxyExecutor.Handlers}
    (h : Stands l r w0 s w) (hproxy : s.Proxied) (hfits : s.Connects ∨ s.Relays)
    (hwait : Connecting l r w0 w → Ensures handlers.waitConnect w (Settled l r w0))
    (hforward : Connecting l r w0 w → Ensures handlers.forwardRequest w (Settled l r w0))
    (hread : ∀ state, Relaying l r w0 state w → (w.data l r).state = .forwardResponse →
      fd = (w.data l r).fd1 → hasEvent events EPOLLIN →
        Ensures handlers.forwardResponseRead w (Settled l r w0))
    (hwrite : ∀ state, Relaying l r w0 state w → (w.data l r).state = .forwardResponse ∨
      (w.data l r).state = .forwardResponseOnlyWrite → fd = (w.data l r).fd0 →
        hasEvent events EPOLLOUT → Ensures handlers.forwardResponseWrite w (Settled l r w0)) :
    Ensures (ProxyExecutor.process handlers l r fd events) w (Settled l r w0) := by
  have hconnects : s.state = .waitConnect ∨ s.state = .forwardRequest →
      Connecting l r w0 w := by
    intro hstate
    refine ⟨s, h, hproxy, hfits.resolve_right (fun hrelays => ?_)⟩
    rcases hrelays with ⟨hother, _⟩ | ⟨hother, _⟩
    · rw [hother] at hstate
      rcases hstate with heq | heq <;> cases heq
    · rw [hother] at hstate
      rcases hstate with heq | heq <;> cases heq
  have hrelays : s.state = .forwardResponse ∨ s.state = .forwardResponseOnlyWrite →
      Relaying l r w0 s.state w := by
    intro hstate
    refine ⟨s, h, hproxy, rfl, hfits.resolve_left (fun hconnects => ?_)⟩
    rcases hconnects.1 with hother | hother
    · rw [hother] at hstate
      rcases hstate with heq | heq <;> cases heq
    · rw [hother] at hstate
      rcases hstate with heq | heq <;> cases heq
  rw [← h.state] at hconnects hrelays
  simp only [ProxyExecutor.process, ensures_bind, ensures_getData, ensures_ite, ensures_pure]
  refine ⟨fun hcond => hwait (hconnects (Or.inl hcond.1)), fun _ =>
    ⟨fun hcond => hforward (hconnects (Or.inr hcond.1)), fun _ =>
      ⟨fun hcond => ?_, fun _ => ⟨fun hcond => ?_, fun _ => h.leaves (by decide)⟩⟩⟩⟩
  · exact hread _ (hrelays (Or.inl hcond.1)) hcond.1 hcond.2.1 hcond.2.2
  · exact hwrite _ (hrelays hcond.1) hcond.1 hcond.2.1 hcond.2.2

theorem ProxyExecutorReadWrite.process_settled (h : Stands l r w0 s w) (hproxy : s.Proxied)
    (hfits : s.Connects ∨ s.Relays) (hpos : 0 < fd)
    (hnot : e.WritesSsl → ¬ Executor.sslProxy.Widens ans (w.data l r) fd events) :
    Ensures (ProxyExecutorReadWrite.process e ans l r fd events) w (Settled l r w0) := by
  have hforward : ∀ w, Connecting l r w0 w →
      Ensures (ProxyExecutorReadWrite.processForwardRequest ans l r) w (Settled l r w0) :=
    fun _ hc => ProxyExecutor.processForwardRequest_settled ProxyExecutor.watchResponse_settled hc
  refine ProxyExecutor.process_settled h hproxy hfits
    (ProxyExecutor.processWaitConnect_settled hforward) (hforward w)
    (fun state hrelays hstate hfd hin => ?_) (fun state hrelays hstate hfd hout => ?_)
  · exact ProxyExecutorReadWrite.processForwardResponseRead_settled hrelays (hfd ▸ hpos)
      (fun hssl hwide => hnot hssl (Or.inl ⟨hstate, hfd, hin, hwide⟩))
  · exact ProxyExecutorReadWrite.processForwardResponseWrite_settled hrelays
      (fun hssl hwide => hnot hssl (Or.inr ⟨hstate, hfd, hout, hwide⟩))

theorem ProxyExecutorSplice.process_settled (h : Stands l r w0 s w) (hproxy : s.Proxied)
    (hfits : s.Connects ∨ s.Relays) (hpos : 0 < fd) :
    Ensures (ProxyExecutorSplice.process ans l r fd events) w (Settled l r w0) := by
  have hforward : ∀ w, Connecting l r w0 w →
      Ensures (ProxyExecutorSplice.processForwardRequest ans l r) w (Settled l r w0) :=
    fun _ hc => ProxyExecutor.processForwardRequest_settled
      ProxyExecutorSplice.startResponse_settled hc
  refine ProxyExecutor.process_settled h hproxy hfits
    (ProxyExecutor.processWaitConnect_settled hforward) (hforward w)
    (fun state hrelays _ hfd _ => ?_) (fun state hrelays _ _ _ => ?_)
  · exact ProxyExecutorSplice.processForwardResponseRead_settled hrelays (hfd ▸ hpos)
  · exact (ProxyExecutorSplice.relaying_processForwardResponseWrite w hrelays).mono
      (fun _ _ h1 => h1.settled)

/-- A call that widens no mask leaves a stance that fits, or asks for the removal. -/
theorem Executor.process_settled (hserves : e.Serves) (h : Stands l r w0 s w)
    (hexec : s.exec = some e) (hfits : s.Fits) (hpos : 0 < fd)
    (hnot : ¬ e.Widens ans (w.data l r) fd events) :
    Ensures (e.process ans l r fd events) w (Settled l r w0) := by
  have hcases := hfits
  unfold Stance.Fits at hcases
  rw [hexec] at hcases
  cases e with
  | newFd => exact hserves.elim
  | server => exact hserves.elim
  | sslServer => exact hserves.elim
  | request =>
    simp only [Executor.process, RequestExecutor.process, ensures_bind, ensures_getData,
      ensures_ite, ensures_pure]
    refine ⟨fun _ => ?_, fun _ => h.leaves (by decide)⟩
    exact RequestExecutor.processReadRequest_settled (Or.inl rfl) (Or.inl rfl)
      (Or.inr (Or.inr (Or.inl rfl))) h (Or.inl hexec) hfits (fun heq => by cases heq)
  | sslRequest =>
    simp only [Executor.process, SslRequestExecutor.process, ensures_bind, ensures_getData,
      ensures_ite, ensures_pure]
    refine ⟨fun hcond => ?_, fun _ => ⟨fun hcond => ?_, fun _ => h.leaves (by decide)⟩⟩
    · have hstate : s.state = .sslHandshake := h.state.symm.trans hcond.1
      refine SslRequestExecutor.processHandshake_settled h ⟨hexec, ?_⟩ hstate
      rcases hcases with ⟨_, hupstream⟩ | ⟨hread, _⟩
      · exact hupstream
      · rw [hread] at hstate
        cases hstate
    · exact RequestExecutor.processReadRequest_settled (Or.inr rfl) (Or.inr (Or.inl rfl))
        (Or.inr (Or.inr (Or.inr (Or.inr rfl)))) h (Or.inr hexec) hfits
        (fun _ hwide => hnot ⟨hcond.1, hcond.2.1, hcond.2.2, hwide⟩)
  | file =>
    exact FileExecutor.process_settled h (Or.inl hexec) (fun _ => hcases.2) hfits
      (fun hssl => by rcases hssl with heq | heq <;> cases heq)
  | sslFile =>
    simp only [Executor.process, SslFileExecutor.process, ensures_bind, ensures_getData,
      ensures_ite]
    refine ⟨fun hcond => ?_, fun _ => ?_⟩
    · have hstate : s.state = .sendFile := h.state.symm.trans hcond.1
      refine sslProcessSendFile_settled h hexec hstate ?_ hfits
      rcases hcases with ⟨_, honly⟩ | ⟨_, honly⟩
      · exact honly.2
      · exact honly.2
    · refine FileExecutor.process_settled h (Or.inr hexec) (fun hheaders => ?_) hfits
        (fun _ hstate hfd hout hwide => hnot ⟨hstate, hfd, hout, hwide⟩)
      rcases hcases with ⟨_, honly⟩ | ⟨hfile, _⟩
      · exact honly
      · rw [hfile] at hheaders
        rcases hheaders with heq | heq <;> cases heq
  | proxySplice =>
    exact ProxyExecutorSplice.process_settled h ⟨_, hexec, Or.inl rfl⟩ hcases hpos
  | proxyReadWrite =>
    exact ProxyExecutorReadWrite.process_settled h ⟨_, hexec, Or.inr (Or.inl rfl)⟩ hcases hpos
      (fun hssl => by rcases hssl with heq | heq <;> cases heq)
  | sslProxy =>
    exact ProxyExecutorReadWrite.process_settled h ⟨_, hexec, Or.inr (Or.inr rfl)⟩ hcases hpos
      (fun _ => hnot)

end

end EpollHttp
