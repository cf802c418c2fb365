import EpollHttp.ProxyRelay
import EpollHttp.ProxyParking

/-
Does `ProxyExecutorSplice` wait for the events it needs?

The client is watched while the pipe holds bytes, and the upstream server is watched while it
holds none.  A splice out of the pipe that moves nothing without an error is left out.
-/

namespace EpollHttp
namespace ProxyFlow

open Program ProxyExecutor ProxyRelay ProxyParking

/-- What is watched while the response goes through the pipe. -/
structure Flow (c : Connection) (w : World) : Prop where
  watched0 : (w.data c.l c.r).pollData0 ≠ none → Watched w c.l (w.data c.l c.r).fd0 EPOLLOUT
  watched1 : (w.data c.l c.r).state = .forwardResponse → (w.data c.l c.r).pollData1 ≠ none →
    Watched w c.l (w.data c.l c.r).fd1 EPOLLIN
  filled : 0 < (w.data c.l c.r).bytesInPipe → (w.data c.l c.r).pollData0 ≠ none
  drained : (w.data c.l c.r).bytesInPipe ≤ 0 →
    (w.data c.l c.r).state = .forwardResponse ∧ (w.data c.l c.r).pollData1 ≠ none

inductive Inv (c : Connection) (w : World) : Prop
  | requesting (h : Requesting c w) (unwatched : (w.data c.l c.r).pollData0 = none)
  | responding (q : Fifo UInt8) (h : Responding (Medium.pipe c) c q w) (flow : Flow c w)

/-- What a call ends with. -/
structure Post (c : Connection) (res : ProcessResult) (w : World) : Prop where
  nonneg : 0 ≤ (w.data c.l c.r).bytesInPipe
  inv : res = .ok → Inv c w

/-- What holds behind a call that returned `ok` while the response is forwarded. -/
structure Balanced (c : Connection) (w : World) : Prop where
  count : (w.data c.l c.r).bytesInPipe =
    (w.kernel.taken c.id1).length - ((w.kernel.sent c.id0).length - c.base.length)
  filled : 0 < (w.data c.l c.r).bytesInPipe → Watched w c.l (w.data c.l c.r).fd0 EPOLLOUT
  drained : (w.data c.l c.r).bytesInPipe = 0 → (w.data c.l c.r).state = .forwardResponse ∧
    Watched w c.l (w.data c.l c.r).fd1 EPOLLIN

section
variable {c : Connection} {q : Fifo UInt8} {w w' : World} {ans : Answers}
  {next : Prog ProcessResult}

theorem Responding.nonneg (h : Responding (Medium.pipe c) c q w) :
    0 ≤ (w.data c.l c.r).bytesInPipe := by
  obtain ⟨_, _, _, _, _, hcount⟩ := h.medium
  omega

theorem Inv.nonneg (h : Inv c w) : 0 ≤ (w.data c.l c.r).bytesInPipe := by
  cases h with
  | requesting h _ => exact Int.le_of_eq h.pipe.symm
  | responding q h _ => exact Responding.nonneg h

theorem Post.ok (h : Inv c w) : Post c .ok w := ⟨h.nonneg, fun _ => h⟩

/-- A call that ends the connection leaves no negative count. -/
theorem Post.ends {res : ProcessResult} (hres : res ≠ .ok)
    (h : 0 ≤ (w.data c.l c.r).bytesInPipe) : Post c res w :=
  ⟨h, fun hok => absurd hok hres⟩

theorem Inv.balanced (h : Inv c w) (hs : (w.data c.l c.r).state = .forwardResponse ∨
    (w.data c.l c.r).state = .forwardResponseOnlyWrite) : Balanced c w := by
  cases h with
  | requesting h _ =>
    rcases hs with hs | hs <;> rcases h.state with hr | hr <;> rw [hs] at hr <;> cases hr
  | responding q h flow =>
    obtain ⟨_, _, _, _, _, hcount⟩ := h.medium
    refine ⟨?_, fun hpos => flow.watched0 (flow.filled hpos), fun hzero => ?_⟩
    · rw [h.copied.taken, h.copied.sent, q.order, hcount, List.length_append, List.length_append]
      omega
    · obtain ⟨hfr, h1⟩ := flow.drained (Int.le_of_eq hzero)
      exact ⟨hfr, flow.watched1 hfr h1⟩

/-- Only fields that do not matter for the transfer are assigned. -/
theorem Flow.setData (h : Flow c w) {d : ExecutorData} (hd : SameTransfer (w.data c.l c.r) d)
    (h0 : d.pollData0 = (w.data c.l c.r).pollData0)
    (h1 : d.pollData1 = (w.data c.l c.r).pollData1) : Flow c (w.setData c.l c.r d) := by
  refine ⟨?_, ?_, ?_, ?_⟩
  all_goals rw [World.setData_self]
  · rw [h0, hd.fd0]
    exact h.watched0
  · rw [h1, hd.fd1, hd.state]
    exact h.watched1
  · rw [h0, hd.bytesInPipe]
    exact h.filled
  · rw [h1, hd.bytesInPipe, hd.state]
    exact h.drained

theorem counted_flow (h : Responding (Medium.pipe c) c q w) (hf : Flow c w) :
    Ensures (countAndReturnOk c.l c.r) w (Post c) := by
  simp only [countAndReturnOk, ensures_bind, ensures_countRetry, ensures_pure]
  exact Post.ok (Inv.responding q (h.setData ⟨rfl, rfl, rfl, rfl, rfl, rfl, rfl⟩ rfl rfl)
    (hf.setData ⟨rfl, rfl, rfl, rfl, rfl, rfl, rfl⟩ rfl rfl))

end

/-! ## Calls on the epoll set -/

/-- The registrations that the connection knows of, whatever the pipe holds. -/
structure Known (c : Connection) (w : World) : Prop where
  watched0 : (w.data c.l c.r).pollData0 ≠ none → Watched w c.l (w.data c.l c.r).fd0 EPOLLOUT
  watched1 : (w.data c.l c.r).state = .forwardResponse → (w.data c.l c.r).pollData1 ≠ none →
    Watched w c.l (w.data c.l c.r).fd1 EPOLLIN

section
variable {c : Connection} {q : Fifo UInt8} {w w' : World} {ans : Answers}
  {next : Prog ProcessResult}

/-- The other registrations stay when the client's changes. -/
theorem Known.client {p0 : Option Nat} (h : Known c w) (hresp : Responding (Medium.pipe c) c q w)
    (hw : Rewatch c.l c.r (w.data c.l c.r).fd0 w { w.data c.l c.r with pollData0 := p0 } w')
    (h0 : p0 ≠ none → Watched w' c.l (w.data c.l c.r).fd0 EPOLLOUT) : Known c w' := by
  refine ⟨?_, ?_⟩
  all_goals rw [hw.data]
  · exact h0
  · exact fun hs h1 => (h.watched1 hs h1).congr (hw.only _ (hresp.ne hs))

/-- The other registrations stay when the upstream server's changes. -/
theorem Known.upstream {p1 : Option Nat} (h : Known c w)
    (hresp : Responding (Medium.pipe c) c q w) (hs : (w.data c.l c.r).state = .forwardResponse)
    (hw : Rewatch c.l c.r (w.data c.l c.r).fd1 w { w.data c.l c.r with pollData1 := p1 } w')
    (h1 : p1 ≠ none → Watched w' c.l (w.data c.l c.r).fd1 EPOLLIN) : Known c w' := by
  refine ⟨?_, ?_⟩
  all_goals rw [hw.data]
  · exact fun h0 => (h.watched0 h0).congr (hw.only _ (Ne.symm (hresp.ne hs)))
  · exact fun _ => h1

theorem Known.setData {k : Kernel} {d : ExecutorData} (h : Known c w)
    (hk : k.epoll = w.kernel.epoll)
    (hstate : d.state = (w.data c.l c.r).state) (hfd0 : d.fd0 = (w.data c.l c.r).fd0)
    (hfd1 : d.fd1 = (w.data c.l c.r).fd1) (h0 : d.pollData0 = (w.data c.l c.r).pollData0)
    (h1 : d.pollData1 = (w.data c.l c.r).pollData1) :
    Known c ((w.setKernel k).setData c.l c.r d) := by
  refine ⟨?_, ?_⟩
  all_goals rw [World.setData_self]
  · rw [h0, hfd0]
    exact fun hne => (h.watched0 hne).congr (congrFun (congrFun hk _) _)
  · rw [h1, hfd1, hstate]
    exact fun hs hne => (h.watched1 hs hne).congr (congrFun (congrFun hk _) _)

/-- The client is watched while the pipe holds bytes. -/
theorem addClient_flow (h : Responding (Medium.pipe c) c q w) (hk : Known c w)
    (hpos : 0 < (w.data c.l c.r).bytesInPipe)
    (hnext : ∀ w', Responding (Medium.pipe c) c q w' → Flow c w' → Ensures next w' (Post c)) :
    Ensures (addClient ans c.l c.r next) w (Post c) := by
  refine addClient_rule h.slots (fun h0 => hnext w h ?_) (fun w' p reg hw hreg hout => ?_)
    (fun w' hw => Post.ends (by decide) ?_)
  · exact ⟨hk.watched0, hk.watched1, fun _ => h0, fun hle => by omega⟩
  · have hknown := hk.client h hw (fun _ => ⟨reg, hreg, hout⟩)
    refine hnext w' (h.rewatch hw ⟨rfl, rfl, rfl, rfl, rfl, rfl, rfl⟩)
      ⟨hknown.watched0, hknown.watched1, ?_, ?_⟩
    all_goals rw [hw.data]
    · exact fun _ => Option.some_ne_none p
    · exact fun hle => absurd hpos (Int.not_lt.mpr hle)
  · rw [hw.data]
    exact Int.le_of_lt hpos

/-- The upstream server is watched when the pipe is empty. -/
theorem drained_flow (h : Responding (Medium.pipe c) c q w) (hk : Known c w)
    (hs : (w.data c.l c.r).state = .forwardResponse) (hzero : (w.data c.l c.r).bytesInPipe = 0) :
    Ensures (removeClient c.l c.r (addUpstream ans c.l c.r (countAndReturnOk c.l c.r))) w
      (Post c) := by
  have hadd : ∀ w', Responding (Medium.pipe c) c q w' → Known c w' →
      (w'.data c.l c.r).state = .forwardResponse → (w'.data c.l c.r).bytesInPipe = 0 →
      Ensures (addUpstream ans c.l c.r (countAndReturnOk c.l c.r)) w' (Post c) := by
    intro w' h' hk' hs' hz'
    refine addUpstream_rule h'.slots (h'.ne hs') (fun h1 => counted_flow h' ?_)
      (fun w'' p reg hw hreg hin => ?_) (fun w'' hw => Post.ends (by decide) ?_)
    · exact ⟨hk'.watched0, hk'.watched1, fun hpos => by omega, fun _ => ⟨hs', h1⟩⟩
    · have hknown := hk'.upstream h' hs' hw (fun _ => ⟨reg, hreg, hin⟩)
      refine counted_flow (h'.rewatch hw ⟨rfl, rfl, rfl, rfl, rfl, rfl, rfl⟩)
        ⟨hknown.watched0, hknown.watched1, ?_, ?_⟩
      all_goals rw [hw.data]
      · exact fun hpos => absurd hz' (Int.ne_of_gt hpos)
      · exact fun _ => ⟨hs', Option.some_ne_none p⟩
    · rw [hw.data]
      exact Int.le_of_eq hz'.symm
  refine removeClient_rule h.slots (fun _ => hadd w h hk hs hzero) (fun w' hw => ?_)
    (Post.ends (by decide) (Int.le_of_eq hzero.symm))
  refine hadd w' (h.rewatch hw ⟨rfl, rfl, rfl, rfl, rfl, rfl, rfl⟩)
    (hk.client h hw (fun hne => absurd rfl hne)) ?_ ?_
  all_goals rw [hw.data]
  · exact hs
  · exact hzero

theorem afterWrite_flow (h : Responding (Medium.pipe c) c q w) (hk : Known c w) :
    Ensures (ProxyExecutorSplice.afterWrite ans c.l c.r) w (Post c) := by
  have hnonneg := Responding.nonneg h
  simp only [ProxyExecutorSplice.afterWrite, ensures_bind, ensures_getData, ensures_ite,
    ensures_pure]
  refine ⟨fun hneg => by omega, fun _ => ⟨fun _ => Post.ends (by decide) hnonneg, fun hgo =>
    ⟨fun hpos => addClient_flow h hk hpos (fun w' hw hf => counted_flow hw hf),
      fun hle => ?_⟩⟩⟩
  have hzero : (w.data c.l c.r).bytesInPipe = 0 := by omega
  rcases h.phase with ⟨hs, _⟩ | ⟨hs, _⟩
  · exact drained_flow h hk hs hzero
  · exact absurd ⟨hs, hzero⟩ hgo

/-- `process_forwardResponseWrite`, when a splice out of the pipe does not move nothing. -/
theorem write_flow (h : Responding (Medium.pipe c) c q w) (hk : Known c w)
    (hdrained : (w.data c.l c.r).state = .forwardResponse → (w.data c.l c.r).bytesInPipe ≤ 0 →
      (w.data c.l c.r).pollData1 ≠ none)
    (hmoves : ans.spliceOut.count ≠ 0) :
    Ensures (ProxyExecutorSplice.processForwardResponseWrite ans c.l c.r) w (Post c) := by
  have hnonneg := Responding.nonneg h
  obtain ⟨pipeId, hpipe, _, _, hheld, hcount⟩ := h.medium
  simp only [ProxyExecutorSplice.processForwardResponseWrite, ensures_bind, ensures_getData]
  rw [ensures_ite, ensures_ite, ensures_bind]
  refine ⟨fun hpos => ?_, fun hle => ⟨fun _ => ensures_pure.mpr (Post.ends (by decide) hnonneg),
    fun hne => ?_⟩⟩
  · refine (spliceOut_spec hpipe h.client).mono (fun written w1 hwrite => ?_)
    obtain ⟨hresult, rfl⟩ := hwrite
    have hlen : 0 < ((w.kernel.pipes pipeId).take ProxyExecutorSplice.SPLICE_LENGTH).length := by
      rw [List.length_take, hheld]
      have hsplice : 0 < ProxyExecutorSplice.SPLICE_LENGTH := by decide
      omega
    rw [ensures_ite, ensures_ite, ensures_ite]
    refine ⟨fun hzero => by omega, fun _ => ⟨fun hneg => ?_, fun hnot => ?_⟩⟩
    · have hsame := Splice.wroteNothing h ((w.kernel.pipes pipeId).take
        ProxyExecutorSplice.SPLICE_LENGTH) hpipe (Int.le_of_lt hneg)
      refine ⟨fun _ => ?_, fun _ => ensures_pure.mpr (Post.ends (by decide) hnonneg)⟩
      simp only [ensures_bind, ensures_countRetry]
      refine addClient_flow (hsame.setData ⟨rfl, rfl, rfl, rfl, rfl, rfl, rfl⟩ rfl rfl)
        (hk.setData rfl rfl rfl rfl rfl rfl) ?_
        (fun w' hw hf => ensures_pure.mpr (Post.ok (Inv.responding _ hw hf)))
      rw [World.setData_self]
      exact hpos
    · have hle : written.result.toNat ≤
          ((w.kernel.pipes pipeId).take ProxyExecutorSplice.SPLICE_LENGTH).length := by omega
      rw [List.length_take] at hle
      have htake : ((w.kernel.pipes pipeId).take ProxyExecutorSplice.SPLICE_LENGTH).take
          written.result.toNat = (w.kernel.pipes pipeId).take written.result.toNat := by
        rw [List.take_take, Nat.min_eq_left (by omega)]
      have hnat : written.result = (written.result.toNat : Int) := by omega
      simp only [ensures_bind, ensures_modifyData]
      refine afterWrite_flow (Splice.wrote h hpipe htake (by omega)
        ⟨rfl, rfl, rfl, rfl, rfl, ?_, rfl⟩ rfl rfl) (hk.setData rfl rfl rfl rfl rfl rfl)
      show (w.data c.l c.r).bytesInPipe - written.result =
        (w.data c.l c.r).bytesInPipe - (written.result.toNat : Int)
      rw [← hnat]
  · rcases h.phase with ⟨hs, _⟩ | ⟨hs, _⟩
    · exact counted_flow h ⟨hk.watched0, hk.watched1, fun hpos => by omega,
        fun hle => ⟨hs, hdrained hs hle⟩⟩
    · exact absurd hs hne

/-- `process_forwardResponseRead` -/
theorem read_flow (h : Responding (Medium.pipe c) c q w) (hf : Flow c w)
    (hs : (w.data c.l c.r).state = .forwardResponse) (hmoves : ans.spliceOut.count ≠ 0) :
    Ensures (ProxyExecutorSplice.processForwardResponseRead ans c.l c.r) w (Post c) := by
  have hnonneg := Responding.nonneg h
  have hk : Known c w := ⟨hf.watched0, hf.watched1⟩
  obtain ⟨pipeId, hpipe, _, hends, _, _⟩ := h.medium
  obtain ⟨writeId, hwriteFd, hend⟩ := hends hs
  simp only [ProxyExecutorSplice.processForwardResponseRead, ensures_bind, ensures_getData]
  refine (spliceIn_spec (h.server hs) hwriteFd).mono (fun received w1 hreceived => ?_)
  rw [ensures_ite, ensures_ite]
  rcases hreceived with ⟨hres, rfl⟩ | ⟨came, _, _, hres, rfl⟩
  · refine ⟨fun h0 => by omega, fun _ => ⟨fun _ => ?_, fun hpos => by omega⟩⟩
    simp only [ensures_ite, ensures_bind, ensures_countRetry, ensures_pure]
    have hresp := h.setData (d := { w1.data c.l c.r with
      retryCounter := (w1.data c.l c.r).retryCounter + 1 })
      ⟨rfl, rfl, rfl, rfl, rfl, rfl, rfl⟩ rfl rfl
    have hflow := hf.setData (d := { w1.data c.l c.r with
      retryCounter := (w1.data c.l c.r).retryCounter + 1 })
      ⟨rfl, rfl, rfl, rfl, rfl, rfl, rfl⟩ rfl rfl
    refine ⟨fun _ => ⟨fun hfull => ?_, fun _ => Post.ok (Inv.responding q hresp hflow)⟩,
      fun _ => Post.ends (by decide) hnonneg⟩
    have hs1 : ((w1.setData c.l c.r { w1.data c.l c.r with
        retryCounter := (w1.data c.l c.r).retryCounter + 1 }).data c.l c.r).state =
          .forwardResponse := by
      rw [World.setData_self]
      exact hs
    -- The pipe holds bytes, so the client is watched.
    refine removeUpstream_rule hresp.slots (hresp.ne hs1)
      (fun _ => ensures_pure.mpr (Post.ok (Inv.responding q hresp hflow))) (fun w' hw => ?_)
      (Post.ends (by decide) (Responding.nonneg hresp))
    have hknown := Known.upstream ⟨hflow.watched0, hflow.watched1⟩ hresp hs1 hw
      (fun hne => absurd rfl hne)
    refine ensures_pure.mpr (Post.ok (Inv.responding q
      (hresp.rewatch hw ⟨rfl, rfl, rfl, rfl, rfl, rfl, rfl⟩)
      ⟨hknown.watched0, hknown.watched1, ?_, ?_⟩))
    · rw [hw.data]
      exact hflow.filled
    · rw [hw.data, World.setData_self]
      exact fun hle => absurd hfull.1 (Int.not_lt.mpr hle)
  · rw [hend]
    refine ⟨fun h0 => ?_, fun hne => ⟨fun hneg => by omega, fun _ => ?_⟩⟩
    · have hnil : received.bytes = [] := by
        rw [← List.length_eq_zero_iff]
        omega
      rw [hnil, List.append_nil]
      obtain ⟨hended, hflag⟩ := h.ended hs
      have hsame : ((w.kernel.take c.id1 []).setPipe pipeId (w.kernel.pipes pipeId)) =
          w.kernel.take c.id1 [] := Kernel.setPipe_self (w.kernel.take c.id1 []) pipeId
      rw [hsame]
      simp only [ensures_bind, ensures_setState]
      have hcloseFd := closeFd1_spec hended.slots (hended.ne hs)
      rw [World.setKernel_data] at hcloseFd
      refine hcloseFd.mono (fun _ w' hclosed => write_flow (Splice.closed hended hs hflag hclosed)
        ⟨?_, ?_⟩ ?_ hmoves)
      · obtain ⟨p1, hdata⟩ := hclosed.data
        rw [World.setData_self, hdata]
        exact fun hne => (hk.watched0 hne).congr (hclosed.watching _ (Ne.symm (h.ne hs)))
      · rw [World.setData_self]
        exact fun hfr => by cases hfr
      · rw [World.setData_self]
        exact fun hfr => by cases hfr
    · simp only [ensures_bind, ensures_modifyData]
      refine write_flow (Splice.filled h hs hpipe ⟨rfl, rfl, rfl, rfl, rfl, ?_, rfl⟩ rfl rfl)
        (hk.setData rfl rfl rfl rfl rfl rfl) ?_ hmoves
      · show (w.data c.l c.r).bytesInPipe + received.result =
          (w.data c.l c.r).bytesInPipe + (received.bytes.length : Int)
        rw [hres]
      · rw [World.setData_self]
        intro _ hle
        have hle' : (w.data c.l c.r).bytesInPipe + received.result ≤ 0 := hle
        omega

/-- The upstream server is watched for the response, and the pipe is empty. -/
theorem startResponse_flow (h : Requested c w) (h0 : (w.data c.l c.r).pollData0 = none) :
    Ensures (ProxyExecutorSplice.startResponse ans c.l c.r) w (Post c) := by
  simp only [ProxyExecutorSplice.startResponse, ensures_bind, ensures_getData, ensures_ite,
    ensures_pure]
  refine editPollFd_spec.mono (fun res w1 hedit => ?_)
  rcases hedit with ⟨hres, p, k, hp, hmod, rfl⟩ | ⟨hres, rfl⟩
  · have hafter : Requested c (w.setKernel k) :=
      ⟨h.toResponding.congr (h.slots.setKernel k) ⟨rfl, rfl, rfl, rfl, rfl, rfl, rfl⟩
        (Kernel.SameStreams.ctlMod hmod), h.state, h.buffer, h.unread, h.pipe⟩
    obtain ⟨reg, _, hk⟩ := Kernel.ctlMod_some hmod
    have h1 : (w.data c.l c.r).pollData1 = some p := by
      rcases h.slots.dropPollData_cases hp with ⟨heq, _⟩ | ⟨_, _, h1, _⟩
      · exact absurd heq (h.ne h.state)
      · exact h1
    refine ⟨fun hne => absurd hres hne,
      fun _ => Splice.openPipe_spec.mono (fun opened w2 hopen => ?_)⟩
    rcases hopen with ⟨hfail, rfl⟩ | ⟨hok, readFd, writeFd, k', hk', rfl⟩
    · exact ⟨fun _ => Post.ends (by decide) (Int.le_of_eq h.pipe.symm), fun hzero => by omega⟩
    · refine ⟨fun hne => absurd hok hne, fun _ => Post.ok (Inv.responding _
        (Splice.opened hafter hk') ⟨?_, ?_, ?_, ?_⟩)⟩
      all_goals rw [World.setData_self]
      · exact fun hne => absurd h0 hne
      · intro _ _
        have hin : hasEvent (watched EPOLLIN) EPOLLIN = true := by decide
        refine ⟨{ ptr := p, events := watched EPOLLIN, serial := reg.serial }, ?_, hin⟩
        show k'.epoll c.l (w.data c.l c.r).fd1 = _
        rw [hk'.epoll, World.setKernel_kernel, hk]
        exact Kernel.setRegistration_self _
      · exact fun hpos => absurd h.pipe (Int.ne_of_gt hpos)
      · refine fun _ => ⟨h.state, ?_⟩
        show (w.data c.l c.r).pollData1 ≠ none
        rw [h1]
        exact Option.some_ne_none p
  · exact ⟨fun _ => Post.ends (by decide) (Int.le_of_eq h.pipe.symm), fun hzero => by omega⟩

theorem request_flow (h : Requesting c w) (hs : (w.data c.l c.r).state = .forwardRequest)
    (h0 : (w.data c.l c.r).pollData0 = none) :
    Ensures (ProxyExecutorSplice.processForwardRequest ans c.l c.r) w (Post c) :=
  request_rule h hs
    (fun _ hw _ hsame => Post.ok (Inv.requesting hw (hsame.pollData0.trans h0)))
    (fun _ hw => Post.ends (by decide) (Int.le_of_eq hw.pipe.symm))
    (fun _ hw hsame => startResponse_flow hw (hsame.pollData0.trans h0))

/-- One call of `process`. -/
theorem process_flow {fd : Int} {events : Nat} (h : Inv c w) (hmoves : ans.spliceOut.count ≠ 0) :
    Ensures (ProxyExecutorSplice.process ans c.l c.r fd events) w (Post c) := by
  unfold ProxyExecutorSplice.process ProxyExecutor.process
  simp only [ensures_bind, ensures_getData, ensures_ite, ensures_pure,
    ProxyExecutorSplice.handlers]
  cases h with
  | requesting h h0 =>
    refine ⟨fun hw => ?_, fun _ => ⟨fun hf => request_flow h hf.1 h0, fun _ => ⟨fun hr => ?_,
      fun _ => ⟨fun hw => ?_, fun _ => ?_⟩⟩⟩⟩
    · refine connect_rule h hw.1
        (fun _ hreq _ hsame => Post.ok (Inv.requesting hreq (hsame.pollData0.trans h0)))
        (fun _ hreq => Post.ends (by decide) (Int.le_of_eq hreq.pipe.symm))
        (fun _ hreq hs hsame => request_flow hreq hs (hsame.pollData0.trans h0))
    · rcases h.state with hs | hs <;> rw [hr.1] at hs <;> cases hs
    · rcases hw.1 with hn | hn <;> rcases h.state with hs | hs <;> rw [hn] at hs <;> cases hs
    · exact Post.ends (by decide) (Int.le_of_eq h.pipe.symm)
  | responding q h hf =>
    refine ⟨fun hw => ?_, fun _ => ⟨fun hr => ?_, fun _ => ⟨fun hr => read_flow h hf hr.1 hmoves,
      fun _ => ⟨fun _ => ?_, fun _ => ?_⟩⟩⟩⟩
    · rcases h.phase with ⟨hs, _⟩ | ⟨hs, _⟩ <;> rw [hw.1] at hs <;> cases hs
    · rcases h.phase with ⟨hs, _⟩ | ⟨hs, _⟩ <;> rw [hr.1] at hs <;> cases hs
    · exact write_flow h ⟨hf.watched0, hf.watched1⟩ (fun _ hle => (hf.drained hle).2) hmoves
    · exact Post.ends (by decide) (Responding.nonneg h)

/-! ## Runs -/

theorem Inv.elsewhere (h : Inv c w) (hu : Untouched c.l c.r [c.id0, c.id1] w w') : Inv c w' := by
  cases h with
  | requesting h h0 =>
    have hinv := Relay.inv_elsewhere (x := .splice) (ProxyRelay.Inv.requesting h) hu
    cases hinv with
    | requesting h' =>
      refine Inv.requesting h' ?_
      rw [hu.data]
      exact h0
    | responding q h' =>
      rcases h'.phase with ⟨hr, _⟩ | ⟨hr, _⟩ <;> rcases h.state with hs | hs <;>
        rw [hu.data, hs] at hr <;> cases hr
  | responding q h hf =>
    have hinv := Relay.inv_elsewhere (x := .splice) (ProxyRelay.Inv.responding q h) hu
    cases hinv with
    | requesting h' =>
      rcases h.phase with ⟨hr, _⟩ | ⟨hr, _⟩ <;> rcases h'.state with hs | hs <;>
        rw [hu.data, hr] at hs <;> cases hs
    | responding q' h' =>
      refine Inv.responding q' h' ⟨?_, ?_, ?_, ?_⟩
      all_goals rw [hu.data]
      · exact fun hne => (hf.watched0 hne).elsewhere hu (Or.inl rfl)
      · exact fun hs hne => (hf.watched1 hs hne).elsewhere hu (Or.inr (Or.inl rfl))
      · exact hf.filled
      · exact hf.drained

theorem up_flow {w0 : World} (h : Handed w0 c.l c.r c.request c.id0)
    (hbase : w0.kernel.sent c.id0 = c.base)
    (hup : ProxyExecutorSplice.up ans c.l c.r w0 = some (0, w))
    (hserver : w.kernel.openId? (w.data c.l c.r).fd1 = some c.id1) : Inv c w := by
  obtain ⟨id1, hstarted⟩ := ProxyExecutor.up_spec h 0 w hup rfl
  have hinv : ProxyRelay.Inv (Medium.pipe c) c w :=
    Relay.up_inv (x := .splice) h hbase hup hserver
  cases hinv with
  | requesting h' => exact Inv.requesting h' hstarted.unwatched
  | responding q h' =>
    rcases h'.phase with ⟨hr, _⟩ | ⟨hr, _⟩ <;> rcases hstarted.state with hs | hs <;>
      rw [hs] at hr <;> cases hr

end

/-- The pipe of a connection never holds a negative number of bytes: the branch that answers with
an error for it leaves such a number behind.  After a call that returned `ok` the connection waits
for the events it needs. -/
theorem run_balanced {c : Connection} {ans : Answers} {w0 w : World} {s : ProxyRun}
    (h : Handed w0 c.l c.r c.request c.id0) (hbase : w0.kernel.sent c.id0 = c.base)
    (hup : ProxyExecutorSplice.up ans c.l c.r w0 = some (0, w))
    (hserver : w.kernel.openId? (w.data c.l c.r).fd1 = some c.id1)
    (hrun : ProxyRun.Reach (ProxyExecutorSplice.process · c.l c.r) c.l c.r [c.id0, c.id1]
      (fun _ ans' _ _ => ans'.spliceOut.count ≠ 0) w s) :
    0 ≤ (s.world.data c.l c.r).bytesInPipe ∧
      (s.last = .ok → (s.world.data c.l c.r).state = .forwardResponse ∨
        (s.world.data c.l c.r).state = .forwardResponseOnlyWrite → Balanced c s.world) := by
  have hinv := up_flow h hbase hup hserver
  have hall : 0 ≤ (s.world.data c.l c.r).bytesInPipe ∧ (s.last = .ok → Inv c s.world) := by
    refine hrun.ensures (Inv c) (fun _ w' => 0 ≤ (w'.data c.l c.r).bytesInPipe) ?_ ?_ ?_ hinv
      hinv.nonneg
    · exact fun w' ans' fd events hi hmoves => (process_flow hi hmoves).mono
        (fun res w'' hpost => ⟨hpost.nonneg, hpost.inv⟩)
    · intro w' w'' res hq hu
      rw [hu.data]
      exact hq
    · exact fun w' w'' hi hu => hi.elsewhere hu
  exact ⟨hall.1, fun hok => (hall.2 hok).balanced⟩

/-- The request is sent, two bytes come, and one of them goes. -/
def halfCalls : List ProxyRun.Call :=
  [ { answers := { write := { count := 3 }, pipe2 := some (7, 8) }, fd := 6, events := EPOLLOUT },
    { answers := { spliceIn := { bytes := some [1, 2] }, spliceOut := { count := 1 } }
      fd := 6
      events := EPOLLIN } ]

theorem run_balanced_half :
    ∃ w s, ProxyRun.session (ProxyExecutorSplice.up · 0 0) (ProxyExecutorSplice.process · 0 0)
      (fun _ ans' _ _ => ans'.spliceOut.count ≠ 0) { socket := 6 } halfCalls (handedWorld getBytes) =
        some (w, s) ∧
      s.last = .ok ∧ Balanced sample s.world := by
  have hrun : (ProxyRun.session (ProxyExecutorSplice.up · 0 0) (ProxyExecutorSplice.process · 0 0)
      (fun _ ans' _ _ => ans'.spliceOut.count ≠ 0) { socket := 6 } halfCalls
        (handedWorld getBytes)).map (fun x =>
        (x.2.last, x.1.kernel.openId? (x.1.data 0 0).fd1, (x.2.world.data 0 0).state)) =
      some (.ok, some 1, .forwardResponse) := by
    decide +kernel
  obtain ⟨⟨w, s⟩, hsession, hshape⟩ := Option.map_eq_some_iff.mp hrun
  obtain ⟨hup, hreach⟩ := ProxyRun.session_some 0 0 [0, 1] hsession
  simp only [Prod.mk.injEq] at hshape
  obtain ⟨hlast, hserver, hstate⟩ := hshape
  have hbase : (handedWorld getBytes).kernel.sent 0 = [] := by decide +kernel
  have h := run_balanced (c := sample) handedWorld_handed hbase hup hserver hreach
  exact ⟨w, s, hsession, hlast, h.2 hlast (Or.inl hstate)⟩

end ProxyFlow
end EpollHttp
