import EpollHttp.Executors.AttentiveSteps

/-
The proxies leave stances that fit.

The upstream server is watched for `EPOLLOUT` until it has the request.  From then on the client is
watched for `EPOLLOUT` and the server for `EPOLLIN`, or not at all.
-/

namespace EpollHttp

open Program

def Executor.Proxies (e : Executor) : Prop :=
  e = .proxySplice ∨ e = .proxyReadWrite ∨ e = .sslProxy

/-- The stance of a proxy. -/
def Stance.Proxied (s : Stance) : Prop := ∃ e, s.exec = some e ∧ e.Proxies

/-- The request is being sent to the upstream server. -/
def Connecting (l r : Nat) (w0 w : World) : Prop :=
  ∃ s, Stands l r w0 s w ∧ s.Proxied ∧ s.Connects

/-- The response is being sent to the client. -/
def Relaying (l r : Nat) (w0 : World) (state : ExecutorData.State) (w : World) : Prop :=
  ∃ s, Stands l r w0 s w ∧ s.Proxied ∧ s.state = state ∧ s.Relays

section
variable {ans : Answers} {w0 w w' : World} {l r : Nat} {s : Stance} {e : Executor} {fd : Int}
variable {state : ExecutorData.State} {result : ProcessResult} {next : Prog ProcessResult}

theorem Stance.Proxied.fits (h : s.Proxied) (hfits : s.Connects ∨ s.Relays) : s.Fits := by
  obtain ⟨e, hexec, he⟩ := h
  unfold Stance.Fits
  rw [hexec]
  rcases he with rfl | rfl | rfl
  · exact hfits
  · exact hfits
  · exact hfits

theorem Stance.Proxied.watched (h : s.Proxied) (place : Place) (mask : Option Nat) :
    (s.watch place mask).Proxied := by
  obtain ⟨e, hexec, he⟩ := h
  exact ⟨e, (watch_exec s place mask).trans hexec, he⟩

theorem Connecting.settled (h : Connecting l r w0 w) : Settled l r w0 result w := by
  obtain ⟨s, hs, hproxy, hconnects⟩ := h
  exact hs.settled (hproxy.fits (Or.inl hconnects))

theorem Relaying.settled (h : Relaying l r w0 state w) : Settled l r w0 result w := by
  obtain ⟨s, hs, hproxy, _, hrelays⟩ := h
  exact hs.settled (hproxy.fits (Or.inr hrelays))

theorem Relaying.state_eq (h : Relaying l r w0 state w) : (w.data l r).state = state := by
  obtain ⟨s, hs, _, hstate, _⟩ := h
  exact hs.state.trans hstate

theorem Relaying.cases (h : Relaying l r w0 state w) :
    state = .forwardResponse ∨ state = .forwardResponseOnlyWrite := by
  obtain ⟨s, _, _, rfl, ⟨hstate, _⟩ | ⟨hstate, _⟩⟩ := h
  · exact Or.inl hstate
  · exact Or.inr hstate

/-- What keeps every stance keeps the relaying ones. -/
theorem relaying_keeps {α : Type} {m : Prog α} (hm : ∀ s, Preserves (Stands l r w0 s) m) :
    Preserves (Relaying l r w0 state) m := by
  intro w h
  obtain ⟨s, hs, hrest⟩ := h
  exact (hm s w hs).mono (fun _ _ hs' => ⟨s, hs', hrest⟩)

theorem connecting_keeps {α : Type} {m : Prog α} (hm : ∀ s, Preserves (Stands l r w0 s) m) :
    Preserves (Connecting l r w0) m := by
  intro w h
  obtain ⟨s, hs, hrest⟩ := h
  exact (hm s w hs).mono (fun _ _ hs' => ⟨s, hs', hrest⟩)

theorem relaying_assign {f : ExecutorData → ExecutorData}
    (hfd : ∀ d place, (f d).fdAt place = d.fdAt place)
    (hpoll : ∀ d place, (f d).pollDataAt place = d.pollDataAt place)
    (hexec : ∀ d, (f d).pExecutor = d.pExecutor) (hstate : ∀ d, (f d).state = d.state) :
    Preserves (Relaying l r w0 state) (modifyData l r f) :=
  relaying_keeps (fun _ => stands_assign hfd hpoll hexec hstate)

namespace ProxyExecutor

/-! ## Connecting -/

theorem socket_stance (hb : Booked w) (hs : Socket w fd w') : w'.stance l r = w.stance l r := by
  rcases hs with ⟨_, rfl | ⟨sock, havail, rfl⟩⟩ | ⟨_, rfl⟩
  · rfl
  · -- The socket is closed again, as if another executor had tried it.
    have hother : Effects l (r + 1) w
        (w.setKernel ((w.kernel.opened sock false).close sock)) := .single (.tried sock havail)
    exact hother.stance_other hb (fun heq => by omega)
  · exact setKernel_stance_epoll rfl

theorem stands_socket (hx : s.exec ≠ some .request ∧ s.exec ≠ some .sslRequest)
    (h : Stands l r w0 s w) (halone : (w.data l r).Alone) (hs : Socket w fd w') :
    Stands l r w0 s (w'.setData l r { w'.data l r with fd1 := fd }) := by
  have hdid := did_socket .fd1 h.did halone.2 halone.1 (fun _ => hx) hs
  have hpoll : w'.pollDataAt l r .fd1 = none := by
    rcases hs with ⟨_, rfl | ⟨_, _, rfl⟩⟩ | ⟨_, rfl⟩
    · exact halone.2
    · exact halone.2
    · exact halone.2
  exact ⟨hdid, (setFd1_stance hpoll fd).trans ((socket_stance h.did.booked hs).trans h.stance)⟩

theorem watchUpstream_upped {connected : Bool} (h : Stands l r w0 s w) (hproxy : s.Proxied) :
    Ensures (watchUpstream ans l r connected) w (Upped l r w0) := by
  simp only [watchUpstream, ensures_bind, ensures_getData, ensures_ite, ensures_pure,
    ensures_setState]
  have hat : w.fdAt l r .fd1 = (w.data l r).fd1 := rfl
  refine ((stands_addPollFd h (Or.inr rfl) hat).and addPollFd_fdAt).mono (fun added w1 h1 => ?_)
  obtain ⟨h1, hfd⟩ := h1
  rcases h1 with ⟨hzero, h1⟩ | ⟨hfailed, h1⟩
  · refine ⟨fun hne => absurd hzero hne, fun _ => ?_⟩
    have hat1 : w1.fdAt l r .fd0 = (w.data l r).fd0 := hfd .fd0
    refine (stands_removePollFd h1 (Or.inl rfl) hat1).mono (fun removed w2 h2 => ?_)
    rcases h2 with ⟨hzero, h2⟩ | ⟨hfailed, h2⟩
    · refine ⟨fun hne => absurd hzero hne, fun _ => ⟨_, stands_setState h2 _, fun _ => ?_⟩⟩
      obtain ⟨e, hexec, he⟩ := hproxy
      refine Stance.Proxied.fits ⟨e, hexec, he⟩ (Or.inl ⟨?_, rfl, rfl⟩)
      cases connected
      · exact Or.inl rfl
      · exact Or.inr rfl
    · exact ⟨fun _ => h2.failed (by decide), fun hzero => absurd (by rw [hfailed]; decide) hzero⟩
  · exact ⟨fun _ => h1.failed (by decide), fun hzero => absurd (by rw [hfailed]; decide) hzero⟩

/-- A proxy starts from a client and nothing else. -/
theorem up_upped (h : Stands l r w0 s w) (hproxy : s.Proxied) (halone : (w.data l r).Alone) :
    Ensures (up ans l r) w (Upped l r w0) := by
  have hx : s.exec ≠ some .request ∧ s.exec ≠ some .sslRequest := by
    obtain ⟨e, hexec, rfl | rfl | rfl⟩ := hproxy <;> rw [hexec] <;> decide
  simp only [up, ensures_bind, ensures_modifyData]
  have h1 : Stands l r w0 s (w.setData l r { w.data l r with removeOnTimeout := true }) :=
    h.assigned ⟨fun _ => rfl, fun _ => rfl⟩ rfl rfl
  have halone1 : ((w.setData l r { w.data l r with removeOnTimeout := true }).data l r).Alone := by
    rw [World.setData_self]
    exact halone
  generalize w.setData l r { w.data l r with removeOnTimeout := true } = w1 at h1 halone1
  rw [ensures_getData]
  cases (w1.data l r).proxy with
  | none => exact ensures_pure.mpr (h1.failed (by decide))
  | some proxy =>
    simp only [ensures_ite, ensures_pure, ensures_bind, ensures_modifyData]
    refine ⟨fun _ => h1.failed (by decide), fun _ => connect_spec.mono (fun res w2 hs => ?_)⟩
    have h2 := stands_socket hx h1 halone1 hs
    exact ⟨fun _ => h2.failed (by decide), fun _ => watchUpstream_upped h2 hproxy⟩

/-! ## The request -/

/-- What follows the request. -/
abbrev Finishes (l r : Nat) (w0 : World) (finish : Prog ProcessResult) : Prop :=
  ∀ s w, Stands l r w0 s w → s.Proxied → s.state = .forwardResponse → s.client = none →
    Ensures finish w (Settled l r w0)

theorem processForwardRequest_settled {finish : Prog ProcessResult}
    (hfinish : Finishes l r w0 finish) (h : Connecting l r w0 w) :
    Ensures (processForwardRequest finish ans l r) w (Settled l r w0) := by
  simp only [processForwardRequest, ensures_bind, ensures_getData]
  cases (w.data l r).buffer.startRead with
  | none => exact ensures_pure.mpr h.settled
  | some window =>
    simp only [ensures_bind, ensures_ite, ensures_pure, ensures_modifyData]
    refine (connecting_keeps (fun _ => stands_write) w h).mono (fun written w1 h1 => ?_)
    refine ⟨fun _ => ⟨fun _ => ?_, fun _ => h1.settled⟩, fun _ => ?_⟩
    · exact (connecting_keeps (fun _ => stands_countRetry) w1 h1).mono (fun _ _ h2 => h2.settled)
    refine (connecting_keeps (fun _ => stands_clearRetries) w1 h1).mono (fun _ w2 h2 => ?_)
    obtain ⟨s, h2, hproxy, hconnects⟩ := h2
    have h3 : Stands l r w0 s (w2.setData l r { w2.data l r with
        buffer := (w2.data l r).buffer.endRead written.result.toNat }) :=
      h2.assigned ⟨fun _ => rfl, fun _ => rfl⟩ rfl rfl
    generalize w2.setData l r { w2.data l r with
      buffer := (w2.data l r).buffer.endRead written.result.toNat } = w3 at h3
    refine ⟨fun _ => ?_, fun _ => h3.settled (hproxy.fits (Or.inl hconnects))⟩
    have h4 := stands_setState (h3.assigned (d := { w3.data l r with
      buffer := (w3.data l r).buffer.clear }) ⟨fun _ => rfl, fun _ => rfl⟩ rfl rfl) .forwardResponse
    rw [World.setData_self, World.setData_setData] at h4
    obtain ⟨e, hexec, he⟩ := hproxy
    exact hfinish _ _ h4 ⟨e, hexec, he⟩ rfl hconnects.2.1

theorem processWaitConnect_settled {forwardRequest : Prog ProcessResult}
    (hforward : ∀ w, Connecting l r w0 w → Ensures forwardRequest w (Settled l r w0))
    (h : Connecting l r w0 w) :
    Ensures (processWaitConnect forwardRequest ans l r) w (Settled l r w0) := by
  simp only [processWaitConnect, ensures_ite, ensures_bind, ensures_setState, ensures_pure]
  refine ⟨fun _ => hforward _ ?_, fun _ => ⟨fun _ => ?_, fun _ => h.settled⟩⟩
  · obtain ⟨s, hs, ⟨e, hexec, he⟩, _, hmasks⟩ := h
    exact ⟨_, stands_setState hs .forwardRequest, ⟨e, hexec, he⟩, Or.inr rfl, hmasks⟩
  · exact (connecting_keeps (fun _ => stands_countRetry) w h).mono (fun _ _ h1 => h1.settled)

/-- The server is watched for `EPOLLIN` from here on. -/
theorem response_fits (hproxy : s.Proxied) (hstate : s.state = .forwardResponse)
    (hclient : s.client = none) :
    (s.watch .fd1 (some (watched EPOLLIN))).Fits :=
  (hproxy.watched .fd1 _).fits (Or.inr (Or.inl ⟨hstate, Or.inl hclient, Or.inr rfl⟩))

theorem watchResponse_settled : Finishes l r w0 (watchResponse ans l r) := by
  intro s w h hproxy hstate hclient
  simp only [watchResponse, ensures_bind, ensures_getData, ensures_ite, ensures_pure]
  have hat : w.fdAt l r .fd1 = (w.data l r).fd1 := rfl
  refine (stands_editPollFd h (Or.inr rfl) hat).mono (fun edited w1 h1 => ?_)
  rcases h1 with ⟨hzero, h1⟩ | ⟨hfailed, h1⟩
  · exact ⟨fun hne => absurd hzero hne, fun _ =>
      h1.settled (response_fits hproxy hstate hclient)⟩
  · exact ⟨fun _ => h1.leaves (by decide), fun hzero => absurd (by rw [hfailed]; decide) hzero⟩

/-! ## The masks of the response -/

/-- A mask was replaced by one that fits, or the call failed. -/
theorem relaying_maskSet {place : Place} {mask : Option Nat} {code : Int}
    (hset : MaskSet l r w0 s place mask code w) (hproxy : s.Proxied) (hstate : s.state = state)
    (hrelays : s.Relays) (hfits : (s.watch place mask).Relays) : Relaying l r w0 state w := by
  rcases hset with ⟨_, h⟩ | ⟨_, h⟩
  · exact ⟨_, h, hproxy.watched place mask, (watch_state s place mask).trans hstate, hfits⟩
  · exact ⟨s, h, hproxy, hstate, hrelays⟩

/-- The client is watched for `EPOLLOUT`, or not at all. -/
theorem relays_watchClient {mask : Option Nat} (h : s.Relays)
    (hmask : mask = none ∨ mask = some (watched EPOLLOUT)) : (s.watch .fd0 mask).Relays := by
  rcases h with ⟨hstate, _, hupstream⟩ | ⟨hstate, _, hupstream⟩
  · exact Or.inl ⟨hstate, hmask, hupstream⟩
  · exact Or.inr ⟨hstate, hmask, hupstream⟩

theorem relays_writesClient (h : s.Relays) : s.WritesClient := by
  rcases h with ⟨_, hclient, _⟩ | ⟨_, hclient, _⟩
  · exact hclient
  · exact hclient

theorem relays_forgetUpstream (h : s.Relays) : (s.watch .fd1 none).Relays := by
  rcases h with ⟨hstate, hclient, _⟩ | ⟨hstate, hclient, _⟩
  · exact Or.inl ⟨hstate, hclient, Or.inl rfl⟩
  · exact Or.inr ⟨hstate, hclient, rfl⟩

theorem relaying_addClient (hnext : Preserves (Relaying l r w0 state) next) :
    Preserves (Relaying l r w0 state) (addClient ans l r next) := by
  intro w h
  simp only [addClient, ensures_bind, ensures_getData, ensures_ite, ensures_pure]
  refine ⟨fun _ => ?_, fun _ => hnext w h⟩
  obtain ⟨s, hs, hproxy, hstate, hrelays⟩ := h
  have hat : w.fdAt l r .fd0 = (w.data l r).fd0 := rfl
  refine (stands_addPollFd hs (Or.inl rfl) hat).mono (fun added w1 hset => ?_)
  have h1 := relaying_maskSet hset hproxy hstate hrelays
    (relays_watchClient hrelays (Or.inr rfl))
  exact ⟨fun _ => h1, fun _ => hnext w1 h1⟩

theorem relaying_addUpstream (hnext : Preserves (Relaying l r w0 .forwardResponse) next) :
    Preserves (Relaying l r w0 .forwardResponse) (addUpstream ans l r next) := by
  intro w h
  simp only [addUpstream, ensures_bind, ensures_getData, ensures_ite, ensures_pure]
  refine ⟨fun _ => ?_, fun _ => hnext w h⟩
  obtain ⟨s, hs, hproxy, hstate, hrelays⟩ := h
  have hat : w.fdAt l r .fd1 = (w.data l r).fd1 := rfl
  refine (stands_addPollFd hs (Or.inr rfl) hat).mono (fun added w1 hset => ?_)
  have hclient : s.WritesClient := relays_writesClient hrelays
  have h1 := relaying_maskSet hset hproxy hstate hrelays
    (Or.inl ⟨hstate, hclient, Or.inr rfl⟩)
  exact ⟨fun _ => h1, fun _ => hnext w1 h1⟩

theorem relaying_removeClient (hnext : Preserves (Relaying l r w0 state) next) :
    Preserves (Relaying l r w0 state) (removeClient l r next) := by
  intro w h
  simp only [removeClient, ensures_bind, ensures_getData, ensures_ite, ensures_pure]
  refine ⟨fun _ => ?_, fun _ => hnext w h⟩
  obtain ⟨s, hs, hproxy, hstate, hrelays⟩ := h
  have hat : w.fdAt l r .fd0 = (w.data l r).fd0 := rfl
  refine (stands_removePollFd hs (Or.inl rfl) hat).mono (fun removed w1 hset => ?_)
  have h1 := relaying_maskSet hset hproxy hstate hrelays (relays_watchClient hrelays (Or.inl rfl))
  exact ⟨fun _ => h1, fun _ => hnext w1 h1⟩

theorem relaying_removeUpstream (hnext : Preserves (Relaying l r w0 state) next) :
    Preserves (Relaying l r w0 state) (removeUpstream l r next) := by
  intro w h
  simp only [removeUpstream, ensures_bind, ensures_getData, ensures_ite, ensures_pure]
  refine ⟨fun _ => ?_, fun _ => hnext w h⟩
  obtain ⟨s, hs, hproxy, hstate, hrelays⟩ := h
  have hat : w.fdAt l r .fd1 = (w.data l r).fd1 := rfl
  refine (stands_removePollFd hs (Or.inr rfl) hat).mono (fun removed w1 hset => ?_)
  have h1 := relaying_maskSet hset hproxy hstate hrelays (relays_forgetUpstream hrelays)
  exact ⟨fun _ => h1, fun _ => hnext w1 h1⟩

theorem relaying_countAndReturnOk : Preserves (Relaying l r w0 state) (countAndReturnOk l r) :=
  relaying_keeps (fun _ => Preserves.bind stands_countRetry (fun _ => Preserves.pure))

/-- The upstream server has closed the connection. -/
theorem relaying_closeUpstream (h : Relaying l r w0 state w) (hpos : 0 < (w.data l r).fd1) :
    Ensures (closeFd l r (w.data l r).fd1) w (fun _ w' =>
      Relaying l r w0 .forwardResponseOnlyWrite
        (w'.setData l r { w'.data l r with state := .forwardResponseOnlyWrite })) := by
  obtain ⟨s, hs, ⟨e, hexec, he⟩, _, hrelays⟩ := h
  have hclient : s.WritesClient := relays_writesClient hrelays
  refine (stands_closeFd1 hs hpos).mono (fun _ w1 h1 => ?_)
  exact ⟨_, stands_setState h1 .forwardResponseOnlyWrite, ⟨e, hexec, he⟩, rfl,
    Or.inr ⟨rfl, hclient, rfl⟩⟩

end ProxyExecutor

/-! ## Through a pipe -/

namespace ProxyExecutorSplice

open ProxyExecutor

theorem stands_openPipe : Preserves (Stands l r w0 s) (openPipe ans l r) := by
  refine Preserves.stands did_openPipe ?_
  unfold openPipe
  rcases ans.pipe2 with _ | ⟨readFd, writeFd⟩
  · exact Preserves.pure
  refine Preserves.ite Preserves.pure ?_
  refine Preserves.bind keeps_newDescriptor (fun readFd => ?_)
  refine Preserves.bind keeps_newDescriptor (fun writeFd => ?_)
  refine Preserves.bind
    (keeps_modifyKernel (fun k => (Kernel.SameTables.joinPipe k readFd writeFd).epoll)) (fun _ => ?_)
  refine Preserves.bind (fun w h => ensures_modifyData.mpr (Eq.trans ?_ h)) (fun _ => Preserves.pure)
  exact setData_stance rfl rfl rfl rfl

theorem startResponse_settled : Finishes l r w0 (startResponse ans l r) := by
  intro s w h hproxy hstate hclient
  simp only [startResponse, ensures_bind, ensures_getData, ensures_ite, ensures_pure]
  have hat : w.fdAt l r .fd1 = (w.data l r).fd1 := rfl
  refine (stands_editPollFd h (Or.inr rfl) hat).mono (fun edited w1 h1 => ?_)
  rcases h1 with ⟨hzero, h1⟩ | ⟨hfailed, h1⟩
  · refine ⟨fun hne => absurd hzero hne, fun _ => ?_⟩
    refine (stands_openPipe w1 h1).mono (fun opened w2 h2 => ?_)
    exact ⟨fun _ => h2.leaves (by decide), fun _ =>
      h2.settled (response_fits hproxy hstate hclient)⟩
  · exact ⟨fun _ => h1.leaves (by decide), fun hzero => absurd (by rw [hfailed]; decide) hzero⟩

theorem relaying_afterWrite : Preserves (Relaying l r w0 state) (afterWrite ans l r) := by
  intro w h
  have hstate := h.state_eq
  simp only [afterWrite, ensures_bind, ensures_getData, ensures_ite, ensures_pure]
  refine ⟨fun _ => h, fun hnonneg => ⟨fun _ => h, fun hmore => ⟨fun _ => ?_, fun hnone => ?_⟩⟩⟩
  · exact relaying_addClient relaying_countAndReturnOk w h
  · -- Nothing is in the pipe, so that the server has not closed the connection.
    rcases h.cases with rfl | rfl
    · exact relaying_removeClient (relaying_addUpstream relaying_countAndReturnOk) w h
    · exact absurd ⟨hstate, by omega⟩ hmore

theorem relaying_processForwardResponseWrite :
    Preserves (Relaying l r w0 state) (processForwardResponseWrite ans l r) := by
  refine Preserves.bind (relaying_keeps (fun _ => stands_getData)) (fun data => ?_)
  refine Preserves.ite ?_ (Preserves.ite Preserves.pure relaying_countAndReturnOk)
  refine Preserves.bind (relaying_keeps (fun _ => stands_spliceOut)) (fun written => ?_)
  refine Preserves.ite relaying_countAndReturnOk ?_
  refine Preserves.ite ?_ ?_
  · refine Preserves.ite ?_ Preserves.pure
    exact Preserves.bind (relaying_keeps (fun _ => stands_countRetry))
      (fun _ => relaying_addClient Preserves.pure)
  · exact Preserves.bind
      (relaying_assign (fun _ _ => rfl) (fun _ _ => rfl) (fun _ => rfl) (fun _ => rfl))
      (fun _ => relaying_afterWrite)

theorem processForwardResponseRead_settled (h : Relaying l r w0 state w)
    (hpos : 0 < (w.data l r).fd1) :
    Ensures (processForwardResponseRead ans l r) w (Settled l r w0) := by
  simp only [processForwardResponseRead, ensures_bind, ensures_getData, ensures_ite, ensures_pure,
    ensures_setState]
  refine ((relaying_keeps (fun _ => stands_spliceIn) w h).and spliceIn_data).mono
    (fun received w1 hboth => ?_)
  obtain ⟨h1, hdata⟩ := hboth
  have hfd1 : (w1.data l r).fd1 = (w.data l r).fd1 := by rw [hdata]
  refine ⟨fun _ => ?_, fun _ => ⟨fun _ => ⟨fun _ => ?_, fun _ => h1.settled⟩, fun _ => ?_⟩⟩
  · rw [← hfd1]
    exact (relaying_closeUpstream h1 (hfd1 ▸ hpos)).mono (fun _ w2 h2 =>
      (relaying_processForwardResponseWrite _ h2).mono (fun _ _ h3 => h3.settled))
  · refine (relaying_keeps (fun _ => stands_countRetry) w1 h1).mono (fun _ w2 h2 => ?_)
    exact ⟨fun _ => (relaying_removeUpstream Preserves.pure w2 h2).mono (fun _ _ h3 => h3.settled),
      fun _ => h2.settled⟩
  · rw [ensures_modifyData]
    have h2 : Relaying l r w0 state (w1.setData l r { w1.data l r with
        retryCounter := 0, bytesInPipe := (w1.data l r).bytesInPipe + received.result }) :=
      ensures_modifyData.mp (relaying_assign (f := fun d => { d with
        retryCounter := 0, bytesInPipe := d.bytesInPipe + received.result })
        (fun _ _ => rfl) (fun _ _ => rfl) (fun _ => rfl) (fun _ => rfl) w1 h1)
    exact (relaying_processForwardResponseWrite _ h2).mono (fun _ _ h3 => h3.settled)

end ProxyExecutorSplice

/-! ## Through the ring buffer -/

namespace ProxyExecutorReadWrite

open ProxyExecutor

theorem relaying_afterWrite : Preserves (Relaying l r w0 state) (afterWrite ans l r) := by
  intro w h
  have hstate := h.state_eq
  simp only [afterWrite, ensures_bind, ensures_getData, ensures_ite, ensures_pure]
  refine ⟨fun _ => h, fun _ => ⟨fun hforward => ?_, fun _ => h⟩⟩
  obtain rfl : state = .forwardResponse := hstate.symm.trans hforward
  exact relaying_addUpstream Preserves.pure w h

theorem processForwardResponseWrite_settled (h : Relaying l r w0 state w)
    (hnot : e.WritesSsl → ¬ (w.data l r).WriteWidens ans) :
    Ensures (processForwardResponseWrite e ans l r) w (Settled l r w0) := by
  simp only [processForwardResponseWrite, ensures_bind, ensures_getData]
  cases hwindow : (w.data l r).buffer.startRead with
  | none =>
    simp only [ensures_ite, ensures_pure]
    exact ⟨fun _ => h.settled, fun _ =>
      (relaying_removeClient relaying_countAndReturnOk w h).mono (fun _ _ h1 => h1.settled)⟩
  | some window =>
    simp only [ensures_bind, ensures_ite, ensures_pure, ensures_modifyData]
    obtain ⟨s, hs, hproxy, hstate, hrelays⟩ := h
    refine (stands_writeFd0 hs).mono (fun written w1 h1 => ?_)
    rcases h1 with h1 | ⟨hdata, hssl, hneg, hwide⟩
    · have h2 : Relaying l r w0 state w1 := ⟨s, h1, hproxy, hstate, hrelays⟩
      refine ⟨fun _ => ⟨fun _ => ?_, fun _ => h2.settled⟩, fun _ => ?_⟩
      · exact (relaying_addClient relaying_countAndReturnOk w1 h2).mono (fun _ _ h3 => h3.settled)
      refine (relaying_keeps (fun _ => stands_clearRetries) w1 h2).mono (fun _ w2 h3 => ?_)
      refine (relaying_afterWrite _ (ensures_modifyData.mp (relaying_assign (f := fun d =>
        { d with buffer := d.buffer.endRead written.result.toNat })
        (fun _ _ => rfl) (fun _ _ => rfl) (fun _ => rfl) (fun _ => rfl) w2 h3))).mono
        (fun _ _ h4 => h4.settled)
    · -- The client is watched, or the mask could not have been widened.
      have hwatched : ¬ (w1.data l r).pollData0 = none := by
        rw [hdata]
        exact hwide.watched
      refine ⟨fun _ => ⟨fun _ => ?_, fun _ => hwide.stands.leaves (by decide)⟩,
        fun hpos => absurd hneg hpos⟩
      simp only [addClient, countAndReturnOk, ensures_bind, ensures_getData, if_neg hwatched,
        ensures_countRetry, ensures_pure]
      exact hwide.settled hdata (hwide.retries hwindow rfl (hnot hssl))

/-- What a write depends on, apart from the descriptor that it writes to. -/
structure Holds (l r : Nat) (d : ExecutorData) (w : World) : Prop where
  buffer : (w.data l r).buffer = d.buffer
  retries : (w.data l r).retryCounter = d.retryCounter
  client : d.pollData0 = none → (w.data l r).pollData0 = none

theorem Holds.writeWidens {d : ExecutorData} (h : Holds l r d w)
    (hw : ExecutorData.WriteWidens ans (w.data l r)) : ExecutorData.WriteWidens ans d := by
  obtain ⟨herror, hmod, hwatched, hretries, hwindow⟩ := hw
  rw [h.retries] at hretries
  rw [h.buffer] at hwindow
  exact ⟨herror, hmod, fun hnone => hwatched (h.client hnone), hretries, hwindow⟩

theorem holds_removePollFd {d : ExecutorData} : Preserves (Holds l r d) (removePollFd l r fd) := by
  have hdrop : ∀ (d : ExecutorData) (p : Nat), (d.dropPollData p).buffer = d.buffer ∧
      (d.dropPollData p).retryCounter = d.retryCounter ∧
      (d.pollData0 = none → (d.dropPollData p).pollData0 = none) := by
    intro d p
    unfold ExecutorData.dropPollData
    split
    · exact ⟨rfl, rfl, fun _ => rfl⟩
    · split <;> exact ⟨rfl, rfl, id⟩
  intro w h
  refine removePollFd_spec.mono (fun result w1 hremove => ?_)
  rcases hremove with ⟨_, p, hr⟩ | ⟨_, rfl, _⟩
  · obtain ⟨_, _, _, rfl⟩ := hr
    obtain ⟨hbuffer, hretries, hclient⟩ := hdrop (w.data l r) p
    refine ⟨?_, ?_, fun hnone => ?_⟩
    · rw [World.rewatch_data_self, hbuffer]
      exact h.buffer
    · rw [World.rewatch_data_self, hretries]
      exact h.retries
    · rw [World.rewatch_data_self]
      exact hclient (h.client hnone)
  · exact h

theorem holds_closeFd {d : ExecutorData} : Preserves (Holds l r d) (closeFd l r fd) := by
  have hfd0 : ∀ w, Holds l r d w →
      Holds l r d (w.setData l r { w.data l r with fd0 := -1 }) := fun w h =>
    ⟨by rw [World.setData_self]; exact h.buffer, by rw [World.setData_self]; exact h.retries,
      fun hnone => by rw [World.setData_self]; exact h.client hnone⟩
  have hfd1 : ∀ w, Holds l r d w →
      Holds l r d (w.setData l r { w.data l r with fd1 := -1 }) := fun w h =>
    ⟨by rw [World.setData_self]; exact h.buffer, by rw [World.setData_self]; exact h.retries,
      fun hnone => by rw [World.setData_self]; exact h.client hnone⟩
  have hclose : ∀ (w : World) (fd : Int), Holds l r d w →
      Holds l r d (w.setKernel (w.kernel.close fd)) := fun _ _ h =>
    ⟨h.buffer, h.retries, h.client⟩
  intro w h
  simp only [closeFd, ensures_bind, ensures_getData, ensures_ite, ensures_when, ensures_close,
    ensures_pure, ensures_modifyData]
  refine ⟨fun _ => ⟨fun _ => ?_, fun _ => hfd0 _ (hclose w _ h)⟩,
    fun _ => ⟨fun _ => ⟨fun _ => ?_, fun _ => hfd1 _ (hclose w _ h)⟩, fun _ => h⟩⟩
  · exact (holds_removePollFd w h).mono (fun _ w1 h1 => hfd0 _ (hclose w1 _ h1))
  · exact (holds_removePollFd w h).mono (fun _ w1 h1 => hfd1 _ (hclose w1 _ h1))

theorem processForwardResponseRead_settled (h : Relaying l r w0 state w)
    (hpos : 0 < (w.data l r).fd1) (hnot : e.WritesSsl → ¬ ReadWidens ans (w.data l r)) :
    Ensures (processForwardResponseRead e ans l r) w (Settled l r w0) := by
  simp only [processForwardResponseRead, ensures_bind, ensures_getData]
  rcases hstart : (w.data l r).buffer.startWrite with ⟨window, buffer⟩
  simp only [ensures_modifyData]
  have h1 : Relaying l r w0 state (w.setData l r { w.data l r with buffer := buffer }) :=
    ensures_modifyData.mp (relaying_assign (f := fun d => { d with buffer := buffer })
      (fun _ _ => rfl) (fun _ _ => rfl) (fun _ => rfl) (fun _ => rfl) w h)
  cases window with
  | none =>
    exact (relaying_removeUpstream (relaying_addClient relaying_countAndReturnOk) _ h1).mono
      (fun _ _ h2 => h2.settled)
  | some window =>
    simp only [ensures_bind, ensures_ite, ensures_pure, ensures_modifyData, ensures_setState]
    refine (((relaying_keeps (fun _ => stands_read) _ h1).and read_data).and read_cases).mono
      (fun received w2 hall => ?_)
    obtain ⟨⟨h2, hdata⟩, hreceived⟩ := hall
    have hdata2 : w2.data l r = { w.data l r with buffer := buffer } := by
      rw [hdata, World.setData_self]
    have hfd1 : (w2.data l r).fd1 = (w.data l r).fd1 := by rw [hdata2]
    -- What `ReadWidens` says, by what was read.
    have hwidens : ∀ came, ans.read.bytes = some came → e.WritesSsl →
        (came.take window.size = [] →
          ¬ ExecutorData.WriteWidens ans { w.data l r with buffer := buffer }) ∧
        (came.take window.size ≠ [] → ¬ ExecutorData.WriteWidens ans { w.data l r with
          buffer := (buffer.fill window.start (came.take window.size)).endWrite
            (came.take window.size).length
          retryCounter := 0 }) := by
      intro came hcame hssl
      have hread := hnot hssl
      unfold ReadWidens at hread
      rw [hstart] at hread
      refine ⟨fun hnil hw => hread ⟨window, rfl, came, hcame, ?_⟩,
        fun hsome hw => hread ⟨window, rfl, came, hcame, ?_⟩⟩
      · rw [if_pos hnil]
        exact hw
      · rw [if_neg hsome]
        exact hw
    rcases hreceived with hfailed | ⟨came, hcame, hbytes, hresult⟩
    · refine ⟨fun _ => ⟨fun hzero => ?_, fun _ => ⟨fun _ => ?_, fun _ => h2.settled⟩⟩,
        fun hpos => absurd (by rw [hfailed]; decide) hpos⟩
      · rw [hfailed] at hzero
        exact absurd hzero (by decide)
      · exact (relaying_countAndReturnOk w2 h2).mono (fun _ _ h3 => h3.settled)
    refine ⟨fun _ => ⟨fun hzero => ?_, fun _ => ⟨fun _ => ?_, fun _ => h2.settled⟩⟩,
      fun hpositive => ?_⟩
    · -- The server is done; what is left in the buffer goes to the client.
      have hnil : came.take window.size = [] := by
        rw [← hbytes]
        exact List.length_eq_zero_iff.mp (by omega)
      have hholds : Holds l r { w.data l r with buffer := buffer } w2 := by
        refine ⟨?_, ?_, fun hnone => ?_⟩
        · rw [hdata2]
        · rw [hdata2]
        · rw [hdata2]
          exact hnone
      rw [← hfd1]
      refine ((relaying_closeUpstream h2 (hfd1 ▸ hpos)).and (holds_closeFd w2 hholds)).mono
        (fun _ w3 h3 => ?_)
      refine processForwardResponseWrite_settled h3.1 (fun hssl hwide => ?_)
      rw [World.setData_self] at hwide
      have h4 : Holds l r { w.data l r with buffer := buffer } (w3.setData l r
          { w3.data l r with state := .forwardResponseOnlyWrite }) := by
        refine ⟨?_, ?_, fun hnone => ?_⟩
        · rw [World.setData_self]
          exact h3.2.buffer
        · rw [World.setData_self]
          exact h3.2.retries
        · rw [World.setData_self]
          exact h3.2.client hnone
      refine (hwidens came hcame hssl).1 hnil (h4.writeWidens ?_)
      rw [World.setData_self]
      exact hwide
    · exact (relaying_countAndReturnOk w2 h2).mono (fun _ _ h3 => h3.settled)
    · have hsome : came.take window.size ≠ [] := by
        intro hnil
        rw [hbytes, hnil] at hresult
        exact hpositive (by rw [hresult]; decide)
      have h3 : Relaying l r w0 state (w2.setData l r { w2.data l r with retryCounter := 0 }) :=
        ensures_clearRetries.mp (relaying_keeps (fun _ => stands_clearRetries) w2 h2)
      rw [ensures_clearRetries]
      refine processForwardResponseWrite_settled
        (ensures_modifyData.mp (relaying_assign (f := fun d => { d with
          buffer := (d.buffer.fill window.start received.bytes).endWrite received.bytes.length })
          (fun _ _ => rfl) (fun _ _ => rfl) (fun _ => rfl) (fun _ => rfl) _ h3))
        (fun hssl hwide => (hwidens came hcame hssl).2 hsome ?_)
      rw [World.setData_self, World.setData_self, hdata2, hbytes] at hwide
      exact hwide

end ProxyExecutorReadWrite

end

end EpollHttp
