import EpollHttp.Executors.ProxyRun
import EpollHttp.Executors.ProxyExecutorReadWrite

/-
Does `ProxyExecutorReadWrite` wait for the events it needs?

While response bytes are unread the client has to be watched for `EPOLLOUT`, and while none are
the upstream server has to be watched for `EPOLLIN`.  A short write to a client that is not
watched breaks this, and nothing else does.
-/

namespace EpollHttp
namespace ProxyParking

open Program ProxyExecutor ProxyExecutorReadWrite TransferRingBuffer

/-- `epoll` reports `flag` for the descriptor. -/
def Watched (w : World) (l : Nat) (fd : Int) (flag : Nat) : Prop :=
  ∃ reg, w.kernel.epoll l fd = some reg ∧ hasEvent reg.events flag = true

/-- The connection waits for an event that lets it go on. -/
def NotParked (l r : Nat) (w : World) : Prop :=
  (w.data l r).state = .forwardResponse ∨ (w.data l r).state = .forwardResponseOnlyWrite →
    ((w.data l r).buffer.unread ≠ [] → Watched w l (w.data l r).fd0 EPOLLOUT) ∧
      ((w.data l r).buffer.unread = [] → (w.data l r).state = .forwardResponse ∧
        Watched w l (w.data l r).fd1 EPOLLIN)

/-- The number of bytes that the call reads from the upstream server. -/
def arriving (d : ExecutorData) (ans : Answers) (fd : Int) (events : Nat) : Nat :=
  if d.state = .forwardResponse ∧ fd = d.fd1 ∧ hasEvent events EPOLLIN then
    match d.buffer.startWrite.1 with
    | some window => ((ans.read.bytes.getD []).take window.size).length
    | none => 0
  else 0

/-- A write to a client that is not watched takes nothing or all that there is to send. -/
def FullWrite (e : Executor) (l r : Nat) (w : World) (ans : Answers) (fd : Int) (events : Nat) :
    Prop :=
  ((w.data l r).state = .forwardResponse ∨ (w.data l r).state = .forwardResponseOnlyWrite) →
    (w.data l r).pollData0 = none → 0 < e.writeCount ans →
      (((w.data l r).buffer.unread.length + arriving (w.data l r) ans fd events : Nat) : Int) ≤
        e.writeCount ans

/-! ## The invariant -/

/-- A buffer that is not full while it is empty. -/
structure Usable (b : TransferRingBuffer) : Prop extends b.WellFormed where
  size : 2 ≤ b.bufSize

structure Base (l r id0 : Nat) (w : World) : Prop where
  slots : Slots w l r
  buffer : Usable (w.data l r).buffer
  client : w.kernel.openId? (w.data l r).fd0 = some id0
  watched0 : (w.data l r).pollData0 ≠ none → Watched w l (w.data l r).fd0 EPOLLOUT

/-- The upstream socket while it is open. -/
structure Upstream (l r : Nat) (w : World) : Prop where
  server : ∃ id1, w.kernel.openId? (w.data l r).fd1 = some id1
  ne : (w.data l r).fd1 ≠ (w.data l r).fd0

/-- While the response is read: a connection that is not watched for one event has nothing to
wait for there. -/
structure Responding (l r : Nat) (w : World) : Prop extends Upstream l r w where
  watched1 : (w.data l r).pollData1 ≠ none → Watched w l (w.data l r).fd1 EPOLLIN
  unread1 : (w.data l r).pollData1 = none → (w.data l r).buffer.unread ≠ []

inductive Inv (l r id0 : Nat) (w : World) : Prop
  | requesting (base : Base l r id0 w) (upstream : Upstream l r w)
      (state : (w.data l r).state = .waitConnect ∨ (w.data l r).state = .forwardRequest)
      (unwatched : (w.data l r).pollData0 = none)
  | responding (base : Base l r id0 w) (upstream : Responding l r w)
      (state : (w.data l r).state = .forwardResponse)
      (drained : (w.data l r).pollData0 = none → (w.data l r).buffer.unread = [])
  | finishing (base : Base l r id0 w) (state : (w.data l r).state = .forwardResponseOnlyWrite)
      (watched : (w.data l r).pollData0 ≠ none) (unread : (w.data l r).buffer.unread ≠ [])

theorem Inv.notParked {l r id0 : Nat} {w : World} (h : Inv l r id0 w) : NotParked l r w := by
  intro hstate
  cases h with
  | requesting _ _ hreq _ =>
    rcases hstate with hs | hs <;> rcases hreq with hr | hr <;> rw [hs] at hr <;> cases hr
  | responding base upstream state drained =>
    refine ⟨fun hne => base.watched0 (fun h0 => hne (drained h0)), fun hnil => ⟨state, ?_⟩⟩
    exact upstream.watched1 (fun h1 => upstream.unread1 h1 hnil)
  | finishing base _ watched unread =>
    exact ⟨fun _ => base.watched0 watched, fun hnil => absurd hnil unread⟩

namespace Usable

variable {b : TransferRingBuffer} {w : Window}

theorem endRead (h : Usable b) (hw : b.ReadWindow w) {k : Nat} (hk : k ≤ w.size) :
    Usable (b.endRead k) := by
  refine ⟨endRead_wellFormed h.toWellFormed hw hk, ?_⟩
  have hsize : (b.endRead k).bufSize = b.bufSize := by
    unfold TransferRingBuffer.endRead
    split <;> rfl
  rw [hsize]
  exact h.size

theorem clear (h : Usable b) : Usable b.clear :=
  ⟨⟨Nat.lt_of_lt_of_le (by decide : 0 < 2) h.size, Nat.zero_le _⟩, h.size⟩

theorem startWrite (h : Usable b) : Usable b.startWrite.2 := by
  obtain ⟨hwf, _, hbuf, _⟩ := startWrite_snd h.toWellFormed
  refine ⟨hwf, ?_⟩
  unfold bufSize
  rw [hbuf]
  exact h.size

theorem fill (h : Usable b) (hw : b.WriteWindow w) {bytes : Bytes} (hb : bytes.length ≤ w.size) :
    Usable ((b.fill w.start bytes).endWrite bytes.length) := by
  refine ⟨(fill_endWrite h.toWellFormed hw hb).1, ?_⟩
  show 2 ≤ (b.fill w.start bytes).bufSize
  rw [(fill_heads b w.start bytes).2.2]
  exact h.size

end Usable

/-! ## Moves that keep the parts of the invariant -/

section
variable {l r id0 : Nat} {w w' : World}

/-- The rest of the data, the item of the other descriptor and its registration stay. -/
theorem Base.update (h : Base l r id0 w) {d : ExecutorData} (hd : w'.data l r = d)
    (hslots : Slots w' l r) (hbuffer : Usable d.buffer) (hfd0 : d.fd0 = (w.data l r).fd0)
    (hopen : w'.kernel.openId? (w.data l r).fd0 = w.kernel.openId? (w.data l r).fd0)
    (hwatched : d.pollData0 ≠ none → Watched w' l (w.data l r).fd0 EPOLLOUT) :
    Base l r id0 w' := by
  subst hd
  refine ⟨hslots, hbuffer, ?_, fun h0 => ?_⟩
  · rw [hfd0, hopen]
    exact h.client
  · rw [hfd0]
    exact hwatched h0

theorem Watched.congr {fd : Int} {flag : Nat} (h : Watched w l fd flag)
    (heq : w'.kernel.epoll l fd = w.kernel.epoll l fd) : Watched w' l fd flag := by
  obtain ⟨reg, hreg, hflag⟩ := h
  exact ⟨reg, by rw [heq]; exact hreg, hflag⟩

/-- The registration of the client may have been edited for `EPOLLOUT`. -/
theorem Watched.reedited {fd fd0 : Int} {flag : Nat} (h : Watched w l fd flag)
    (hk : Reedited l fd0 w.kernel w'.kernel) (hflag : flag = EPOLLOUT ∨ fd ≠ fd0) :
    Watched w' l fd flag := by
  rcases hk l fd with heq | ⟨_, rfl, _, reg', _, hreg', hout⟩
  · exact h.congr heq
  · rcases hflag with rfl | hne
    · exact ⟨reg', hreg', hout⟩
    · exact absurd rfl hne

/-- The counters and the buffer of the connection are replaced. -/
theorem Base.setData (h : Base l r id0 w) {d : ExecutorData} (hbuffer : Usable d.buffer)
    (hfd0 : d.fd0 = (w.data l r).fd0) (h0 : d.pollData0 = (w.data l r).pollData0)
    (h1 : d.pollData1 = (w.data l r).pollData1) : Base l r id0 (w.setData l r d) :=
  h.update (World.setData_self ..) (h.slots.setData h0 h1) hbuffer hfd0 rfl
    (fun hne => h.watched0 (by rw [← h0]; exact hne))

theorem Responding.setData (h : Responding l r w) {d : ExecutorData}
    (hfd0 : d.fd0 = (w.data l r).fd0) (hfd1 : d.fd1 = (w.data l r).fd1)
    (h1 : d.pollData1 = (w.data l r).pollData1)
    (hunread : d.pollData1 = none → d.buffer.unread ≠ []) : Responding l r (w.setData l r d) := by
  refine ⟨⟨?_, ?_⟩, fun hne => ?_, fun hnone => ?_⟩
  · rw [World.setData_self, hfd1]
    exact h.server
  · rw [World.setData_self, hfd0, hfd1]
    exact h.ne
  · rw [World.setData_self] at hne ⊢
    rw [hfd1]
    exact h.watched1 (by rw [← h1]; exact hne)
  · rw [World.setData_self] at hnone ⊢
    exact hunread hnone

/-- The client was written to. -/
theorem Base.wrote (h : Base l r id0 w) {k : Kernel} {bytes : Bytes}
    (hk : Kernel.SameStreams (w.kernel.send id0 bytes) k)
    (hre : Reedited l (w.data l r).fd0 w.kernel k) : Base l r id0 (w.setKernel k) :=
  h.update rfl (h.slots.setKernel k) h.buffer rfl (hk.openId? _)
    (fun h0 => (h.watched0 h0).reedited hre (Or.inl rfl))

theorem Responding.wrote (h : Responding l r w) {k : Kernel} {bytes : Bytes}
    (hk : Kernel.SameStreams (w.kernel.send id0 bytes) k)
    (hre : Reedited l (w.data l r).fd0 w.kernel k) : Responding l r (w.setKernel k) := by
  refine ⟨⟨?_, h.ne⟩, fun h1 => (h.watched1 h1).reedited hre (Or.inr h.ne), h.unread1⟩
  obtain ⟨id1, hid1⟩ := h.server
  exact ⟨id1, (hk.openId? _).trans hid1⟩

/-- A call on the epoll set for the client. -/
theorem Responding.rewatchClient (h : Responding l r w) {p0 : Option Nat}
    (hw : Rewatch l r (w.data l r).fd0 w { w.data l r with pollData0 := p0 } w') :
    Responding l r w' := by
  refine ⟨⟨?_, ?_⟩, fun hne => ?_, fun hnone => ?_⟩
  · rw [hw.data, hw.base.streams.openId?]
    exact h.server
  · rw [hw.data]
    exact h.ne
  · rw [hw.data] at hne ⊢
    exact (h.watched1 hne).congr (hw.only _ h.ne)
  · rw [hw.data] at hnone ⊢
    exact h.unread1 hnone

end

/-! ## One call -/

section
variable {l r id0 : Nat} {w w' : World} {ans : Answers}

/-- The client is watched at the end. -/
theorem addClient_inv (hb : Base l r id0 w)
    (hstate : ((w.data l r).state = .forwardResponse ∧ Responding l r w) ∨
      (w.data l r).state = .forwardResponseOnlyWrite)
    (hunread : (w.data l r).buffer.unread ≠ []) :
    Ensures (addClient ans l r (countAndReturnOk l r)) w (fun res w' =>
      res = .ok → Inv l r id0 w') := by
  -- A connection that watches its client may wait.
  have hwait : ∀ w', Base l r id0 w' → (w'.data l r).state = (w.data l r).state →
      (w'.data l r).buffer = (w.data l r).buffer →
      ((w.data l r).state = .forwardResponse → Responding l r w') →
      (w'.data l r).pollData0 ≠ none →
      Ensures (countAndReturnOk l r) w' (fun res w'' => res = .ok → Inv l r id0 w'') := by
    intro w' hb' hs hbuf hresp h0
    simp only [countAndReturnOk, ensures_bind, ensures_countRetry, ensures_pure]
    intro _
    have hbase := hb'.setData (d := { w'.data l r with
      retryCounter := (w'.data l r).retryCounter + 1 }) hb'.buffer rfl rfl rfl
    rcases hstate with ⟨hfr, _⟩ | how
    · refine Inv.responding hbase ((hresp hfr).setData rfl rfl rfl (hresp hfr).unread1) ?_ ?_
      · rw [World.setData_self]
        exact hs.trans hfr
      · rw [World.setData_self]
        exact fun hnone => absurd hnone h0
    · refine Inv.finishing hbase ?_ ?_ ?_
      · rw [World.setData_self]
        exact hs.trans how
      · rw [World.setData_self]
        exact h0
      · rw [World.setData_self]
        show (w'.data l r).buffer.unread ≠ []
        rw [hbuf]
        exact hunread
  refine addClient_rule hb.slots (fun h0 => ?_) (fun w' p reg hw hreg hout => ?_)
    (fun _ _ h => by cases h)
  · refine hwait w hb rfl rfl (fun hfr => ?_) h0
    rcases hstate with ⟨_, hresp⟩ | how
    · exact hresp
    · rw [hfr] at how
      cases how
  · have hbase : Base l r id0 w' := hb.update hw.data hw.base.slots hb.buffer rfl
      (hw.base.streams.openId? _) (fun _ => ⟨reg, hreg, hout⟩)
    refine hwait w' hbase (by rw [hw.data]) (by rw [hw.data]) (fun hfr => ?_) (by rw [hw.data]; simp)
    rcases hstate with ⟨_, hresp⟩ | how
    · exact hresp.rewatchClient hw
    · rw [hfr] at how
      cases how

/-- Bytes were written to the client. -/
theorem afterWrite_inv (hb : Base l r id0 w)
    (hstate : ((w.data l r).state = .forwardResponse ∧ Upstream l r w ∧
        ((w.data l r).pollData1 ≠ none → Watched w l (w.data l r).fd1 EPOLLIN)) ∨
      (w.data l r).state = .forwardResponseOnlyWrite)
    (hdrained : (w.data l r).pollData0 = none → (w.data l r).buffer.unread = []) :
    Ensures (afterWrite ans l r) w (fun res w' => res = .ok → Inv l r id0 w') := by
  have havail : (w.data l r).buffer.readAvailable = true ↔ (w.data l r).buffer.unread ≠ [] := by
    unfold readAvailable
    rw [Ne, ← startRead_none_iff hb.buffer.toWellFormed, Option.isSome_iff_ne_none]
  simp only [afterWrite, ensures_bind, ensures_getData, ensures_ite, ensures_pure]
  refine ⟨fun _ h => (by cases h), fun hgo => ⟨fun hfr => ?_, fun hne _ => ?_⟩⟩
  · rcases hstate with ⟨_, hup, hwatched⟩ | how
    · refine addUpstream_rule hb.slots hup.ne (fun h1 => ?_) (fun w' p reg hw hreg hin => ?_)
        (fun _ _ h => by cases h)
      · exact ensures_pure.mpr (fun _ =>
          Inv.responding hb ⟨hup, hwatched, fun hnone => absurd hnone h1⟩ hfr hdrained)
      · refine ensures_pure.mpr (fun _ => Inv.responding ?_ ⟨⟨?_, ?_⟩, fun _ => ?_, ?_⟩ ?_ ?_)
        · exact hb.update hw.data hw.base.slots hb.buffer rfl (hw.base.streams.openId? _)
            (fun h0 => (hb.watched0 h0).congr (hw.only _ (Ne.symm hup.ne)))
        · rw [hw.data, hw.base.streams.openId?]
          exact hup.server
        · rw [hw.data]
          exact hup.ne
        · rw [hw.data]
          exact ⟨reg, hreg, hin⟩
        · rw [hw.data]
          simp
        · rw [hw.data]
          exact hfr
        · rw [hw.data]
          exact hdrained
    · rw [hfr] at how
      cases how
  · rcases hstate with ⟨hfr, _⟩ | how
    · exact absurd hfr hne
    · have hunread : (w.data l r).buffer.unread ≠ [] := by
        rw [← havail]
        by_contra hnot
        exact hgo ⟨how, hnot⟩
      exact Inv.finishing hb how (fun h0 => hunread (hdrained h0)) hunread

/-- `process_forwardResponseWrite`, when a write to a client that is not watched is full. -/
theorem write_inv {e : Executor} (hb : Base l r id0 w)
    (hstate : ((w.data l r).state = .forwardResponse ∧ Responding l r w) ∨
      (w.data l r).state = .forwardResponseOnlyWrite)
    (hfull : (w.data l r).pollData0 = none →
      (w.data l r).buffer.readHead ≤ (w.data l r).buffer.writeHead ∧
        (0 < e.writeCount ans → ((w.data l r).buffer.unread.length : Int) ≤ e.writeCount ans)) :
    Ensures (processForwardResponseWrite e ans l r) w (fun res w' =>
      res = .ok → Inv l r id0 w') := by
  simp only [processForwardResponseWrite, ensures_bind, ensures_getData]
  cases hstart : (w.data l r).buffer.startRead with
  | none =>
    have hnil := (startRead_none_iff hb.buffer.toWellFormed).mp hstart
    simp only [ensures_ite, ensures_pure]
    refine ⟨fun _ h => (by cases h), fun hne => ?_⟩
    rcases hstate with ⟨hfr, hresp⟩ | how
    · -- The buffer is empty, so the upstream server is watched.
      have hdone : ∀ w', Base l r id0 w' → Responding l r w' →
          (w'.data l r).state = .forwardResponse → (w'.data l r).buffer.unread = [] →
          Ensures (countAndReturnOk l r) w' (fun res w'' => res = .ok → Inv l r id0 w'') := by
        intro w' hb' hresp' hs hnil'
        simp only [countAndReturnOk, ensures_bind, ensures_countRetry, ensures_pure]
        intro _
        refine Inv.responding (hb'.setData hb'.buffer rfl rfl rfl)
          (hresp'.setData rfl rfl rfl hresp'.unread1) ?_ ?_
        · rw [World.setData_self]
          exact hs
        · rw [World.setData_self]
          exact fun _ => hnil'
      refine removeClient_rule hb.slots (fun _ => hdone w hb hresp hfr hnil) (fun w' hw => ?_)
        (fun h => by cases h)
      refine hdone w' ?_ (hresp.rewatchClient hw) (by rw [hw.data]; exact hfr)
        (by rw [hw.data]; exact hnil)
      exact hb.update hw.data hw.base.slots hb.buffer rfl (hw.base.streams.openId? _)
        (fun h0 => absurd rfl h0)
    · exact absurd how hne
  | some window =>
    have hwindow := startRead_some hb.buffer.toWellFormed hstart
    have hunread : (w.data l r).buffer.unread ≠ [] := by
      rw [Ne, ← startRead_none_iff hb.buffer.toWellFormed, hstart]
      simp
    have hlen : ((w.data l r).buffer.slice window.start (window.start + window.size)).length =
        window.size := by
      have hinside := hwindow.inside
      rw [slice_length hinside]
      omega
    simp only [ensures_bind]
    refine (writeFd0_spec e hb.client).mono (fun written w1 hw => ?_)
    obtain ⟨hcount, k, rfl, hstreams, hre⟩ := hw
    rw [hlen] at hcount
    have hb1 := hb.wrote hstreams hre
    simp only [ensures_ite, ensures_pure, ensures_bind, ensures_clearRetries,
      ensures_modifyData, World.setData_self]
    refine ⟨fun _ => ⟨fun _ => ?_, fun _ h => (by cases h)⟩, fun hpos => ?_⟩
    · refine addClient_inv hb1 ?_ hunread
      rcases hstate with ⟨hfr, hresp⟩ | how
      · exact Or.inl ⟨hfr, hresp.wrote hstreams hre⟩
      · exact Or.inr how
    · have hle : written.result.toNat ≤ window.size := by omega
      have hwf := hb.buffer.endRead hwindow hle
      have hrest := endRead_unread hb.buffer.toWellFormed hwindow hle
      -- What follows sees the buffer behind the bytes that were written.
      have hb2 := (hb1.setData (d := { w.data l r with retryCounter := 0 }) hb.buffer rfl rfl
        rfl).setData (d := { w.data l r with
          retryCounter := 0
          buffer := (w.data l r).buffer.endRead written.result.toNat }) hwf
        (by rw [World.setData_self]) (by rw [World.setData_self]) (by rw [World.setData_self])
      refine afterWrite_inv hb2 ?_ ?_
      · rw [World.setData_self]
        rcases hstate with ⟨hfr, hresp⟩ | how
        · have hresp1 := hresp.wrote hstreams hre
          refine Or.inl ⟨hfr, ⟨?_, ?_⟩, fun h1 => ?_⟩
          · rw [World.setData_self]
            exact hresp1.server
          · rw [World.setData_self]
            exact hresp1.ne
          · exact hresp1.watched1 h1
        · exact Or.inr how
      · rw [World.setData_self]
        intro h0
        obtain ⟨hfront, hall⟩ := hfull h0
        have hsize := startRead_size hb.buffer.toWellFormed hfront hstart
        have hcountpos : 0 < e.writeCount ans := by omega
        have hbound := hall hcountpos
        show ((w.data l r).buffer.endRead written.result.toNat).unread = []
        rw [hrest, List.drop_eq_nil_iff]
        omega

/-- The upstream server reported its end; the client is written to as before. -/
theorem close_inv {e : Executor} (hb : Base l r id0 w) (hup : Upstream l r w)
    (hdrained : (w.data l r).pollData0 = none → (w.data l r).buffer.unread = [])
    (hclosed : ClosedUpstream w l r w') :
    Ensures (processForwardResponseWrite e ans l r)
      (w'.setData l r { w'.data l r with state := .forwardResponseOnlyWrite }) (fun res w'' =>
        res = .ok → Inv l r id0 w'') := by
  obtain ⟨p1, hdata⟩ := hclosed.data
  have hb' : Base l r id0
      (w'.setData l r { w'.data l r with state := .forwardResponseOnlyWrite }) := by
    refine hb.update (d := { w.data l r with
      fd1 := -1, pollData1 := p1, state := .forwardResponseOnlyWrite }) ?_ ?_ hb.buffer rfl
      (hclosed.opened _ (Ne.symm hup.ne)) (fun h0 => ?_)
    · rw [World.setData_self, hdata]
    · exact hclosed.slots.setData rfl rfl
    · exact (hb.watched0 h0).congr (hclosed.watching _ (Ne.symm hup.ne))
  refine write_inv hb' (Or.inr (by rw [World.setData_self])) (fun h0 => ?_)
  rw [World.setData_self] at h0 ⊢
  have hnil : (w.data l r).buffer.unread = [] := hdrained (by rw [hdata] at h0; exact h0)
  show (w'.data l r).buffer.readHead ≤ (w'.data l r).buffer.writeHead ∧ (0 < e.writeCount ans →
    ((w'.data l r).buffer.unread.length : Int) ≤ e.writeCount ans)
  rw [hdata]
  refine ⟨Nat.le_of_eq ((unread_eq_nil_iff hb.buffer.toWellFormed).mp hnil), fun hpos => ?_⟩
  show ((w.data l r).buffer.unread.length : Int) ≤ e.writeCount ans
  rw [hnil]
  exact Int.le_of_lt hpos

/-- The buffer is full: the upstream server is forgotten and the client watched. -/
theorem full_inv (hb : Base l r id0 w) (hresp : Responding l r w)
    (hfr : (w.data l r).state = .forwardResponse) (hunread : (w.data l r).buffer.unread ≠ []) :
    Ensures (removeUpstream l r (addClient ans l r (countAndReturnOk l r))) w (fun res w' =>
      res = .ok → Inv l r id0 w') := by
  refine removeUpstream_rule hb.slots hresp.ne
    (fun _ => addClient_inv hb (Or.inl ⟨hfr, hresp⟩) hunread) (fun w' hw => ?_) (fun h => by cases h)
  have hb' : Base l r id0 w' := hb.update hw.data hw.base.slots hb.buffer rfl
    (hw.base.streams.openId? _) (fun h0 => (hb.watched0 h0).congr (hw.only _ (Ne.symm hresp.ne)))
  refine addClient_inv hb' (Or.inl ⟨by rw [hw.data]; exact hfr, ⟨?_, ?_⟩, ?_, ?_⟩)
    (by rw [hw.data]; exact hunread)
  · rw [hw.data, hw.base.streams.openId?]
    exact hresp.server
  · rw [hw.data]
    exact hresp.ne
  · rw [hw.data]
    exact fun hne => absurd rfl hne
  · rw [hw.data]
    exact fun _ => hunread

/-- Bytes came from the upstream server and are written on. -/
theorem filled_inv {e : Executor} {window : Window} {bytes : Bytes} (hb : Base l r id0 w)
    (hresp : Responding l r w) (hfr : (w.data l r).state = .forwardResponse)
    (hw : (w.data l r).buffer.WriteWindow window) (hlen : bytes.length ≤ window.size)
    (hsome : bytes ≠ [])
    (hfull : (w.data l r).pollData0 = none →
      (((w.data l r).buffer.fill window.start bytes).endWrite bytes.length).readHead ≤
          (((w.data l r).buffer.fill window.start bytes).endWrite bytes.length).writeHead ∧
        (0 < e.writeCount ans →
          (((w.data l r).buffer.unread.length + bytes.length : Nat) : Int) ≤ e.writeCount ans)) :
    Ensures (do
      clearRetries l r
      modifyData l r (fun d =>
        { d with buffer := (d.buffer.fill window.start bytes).endWrite bytes.length })
      processForwardResponseWrite e ans l r) w (fun res w' => res = .ok → Inv l r id0 w') := by
  have hunread := (fill_endWrite hb.buffer.toWellFormed hw hlen).2
  simp only [ensures_bind, ensures_clearRetries, ensures_modifyData, World.setData_self]
  have hb1 : Base l r id0 (w.setData l r { w.data l r with retryCounter := 0 }) :=
    hb.setData hb.buffer rfl rfl rfl
  have hresp1 : Responding l r (w.setData l r { w.data l r with retryCounter := 0 }) :=
    hresp.setData rfl rfl rfl hresp.unread1
  generalize hd2 : ({ w.data l r with
    retryCounter := 0
    buffer := ((w.data l r).buffer.fill window.start bytes).endWrite bytes.length } :
      ExecutorData) = d2
  have hb2 : Base l r id0 ((w.setData l r { w.data l r with retryCounter := 0 }).setData l r d2) := by
    refine hb1.setData ?_ ?_ ?_ ?_
    · rw [← hd2]
      exact hb.buffer.fill hw hlen
    · rw [World.setData_self, ← hd2]
    · rw [World.setData_self, ← hd2]
    · rw [World.setData_self, ← hd2]
  refine write_inv hb2 (Or.inl ⟨by rw [World.setData_self, ← hd2]; exact hfr, ?_⟩) ?_
  · refine hresp1.setData ?_ ?_ ?_ (fun _ => ?_)
    · rw [World.setData_self, ← hd2]
    · rw [World.setData_self, ← hd2]
    · rw [World.setData_self, ← hd2]
    · rw [← hd2, hunread]
      exact List.append_ne_nil_of_right_ne_nil _ hsome
  · rw [World.setData_self, ← hd2, hunread, List.length_append]
    exact hfull

/-- `process_forwardResponseRead`, when a write to a client that is not watched is full. -/
theorem read_inv {e : Executor} (hb : Base l r id0 w) (hresp : Responding l r w)
    (hfr : (w.data l r).state = .forwardResponse)
    (hdrained : (w.data l r).pollData0 = none → (w.data l r).buffer.unread = [])
    (hfull : (w.data l r).pollData0 = none → 0 < e.writeCount ans → ∀ window,
      (w.data l r).buffer.startWrite.1 = some window →
      ((((w.data l r).buffer.unread.length +
        ((ans.read.bytes.getD []).take window.size).length : Nat)) : Int) ≤ e.writeCount ans) :
    Ensures (processForwardResponseRead e ans l r) w (fun res w' =>
      res = .ok → Inv l r id0 w') := by
  obtain ⟨_, hsame, _⟩ := startWrite_snd hb.buffer.toWellFormed
  -- Wrapping the write head changes nothing that matters.
  have hb1 : Base l r id0 (w.setData l r
      { w.data l r with buffer := (w.data l r).buffer.startWrite.2 }) :=
    hb.setData hb.buffer.startWrite rfl rfl rfl
  have hresp1 : Responding l r (w.setData l r
      { w.data l r with buffer := (w.data l r).buffer.startWrite.2 }) := by
    refine hresp.setData rfl rfl rfl (fun h1 => ?_)
    show (w.data l r).buffer.startWrite.2.unread ≠ []
    rw [hsame]
    exact hresp.unread1 h1
  simp only [processForwardResponseRead, ensures_bind, ensures_getData, ensures_modifyData]
  cases hwindow : (w.data l r).buffer.startWrite.1 with
  | none =>
    have hroom := startWrite_none hb.buffer.toWellFormed hwindow
    have hsize := hb.buffer.size
    refine full_inv hb1 hresp1 (by rw [World.setData_self]; exact hfr) ?_
    rw [World.setData_self]
    show (w.data l r).buffer.startWrite.2.unread ≠ []
    rw [hsame, ← List.length_pos_iff]
    omega
  | some window =>
    have hw := startWrite_some hb.buffer.toWellFormed hwindow
    obtain ⟨id1, hserver⟩ := hresp1.server
    rw [World.setData_self] at hserver
    simp only [ensures_bind]
    refine (read_spec hserver).mono (fun received w1 hread => ?_)
    rw [ensures_ite]
    rcases hread with ⟨hres, rfl⟩ | ⟨came, hcame, hbytes, hres, rfl⟩
    · refine ⟨fun _ => ?_, fun hpos => by omega⟩
      simp only [ensures_ite, ensures_pure, ensures_bind, ensures_setState, countAndReturnOk,
        ensures_countRetry]
      refine ⟨fun h0 => by omega, fun _ => ⟨fun _ _ => ?_, fun _ h => (by cases h)⟩⟩
      refine Inv.responding (hb1.setData hb1.buffer rfl rfl rfl)
        (hresp1.setData rfl rfl rfl hresp1.unread1) ?_ ?_
      · rw [World.setData_self, World.setData_self]
        exact hfr
      · rw [World.setData_self, World.setData_self]
        show (w.data l r).pollData0 = none → (w.data l r).buffer.startWrite.2.unread = []
        rw [hsame]
        exact hdrained
    · have hb2 : Base l r id0 ((w.setData l r
          { w.data l r with buffer := (w.data l r).buffer.startWrite.2 }).setKernel
          (w.kernel.take id1 received.bytes)) := ⟨hb1.slots.setKernel _, hb1.buffer, hb1.client,
        hb1.watched0⟩
      have hresp2 : Responding l r ((w.setData l r
          { w.data l r with buffer := (w.data l r).buffer.startWrite.2 }).setKernel
          (w.kernel.take id1 received.bytes)) := ⟨⟨hresp1.server, hresp1.ne⟩, hresp1.watched1,
        hresp1.unread1⟩
      have hfd1 : (w.data l r).fd1 = (((w.setData l r
          { w.data l r with buffer := (w.data l r).buffer.startWrite.2 }).setKernel
          (w.kernel.take id1 received.bytes)).data l r).fd1 := by
        rw [World.setKernel_data, World.setData_self]
      refine ⟨fun _ => ?_, fun hpos => ?_⟩
      · simp only [ensures_ite, ensures_pure, ensures_bind, ensures_setState]
        refine ⟨fun _ => ?_, fun hne => by omega⟩
        have hcloseFd := closeFd1_spec hb2.slots hresp2.ne
        rw [← hfd1] at hcloseFd
        refine hcloseFd.mono (fun _ w3 hclosed => ?_)
        refine close_inv hb2 hresp2.toUpstream ?_ hclosed
        rw [World.setKernel_data, World.setData_self]
        show (w.data l r).pollData0 = none → (w.data l r).buffer.startWrite.2.unread = []
        rw [hsame]
        exact hdrained
      · have hlen : received.bytes.length ≤ window.size := by
          rw [hbytes, List.length_take]
          exact Nat.min_le_left _ _
        have hsome : received.bytes ≠ [] := by
          intro hnil
          rw [hnil] at hres
          simp at hres
          omega
        refine filled_inv hb2 hresp2 (by rw [World.setKernel_data, World.setData_self]; exact hfr)
          (by rw [World.setKernel_data, World.setData_self]; exact hw) hlen hsome (fun h0 => ?_)
        rw [World.setKernel_data, World.setData_self] at h0 ⊢
        have hnone : (w.data l r).pollData0 = none := h0
        refine ⟨fill_endWrite_front hb.buffer.toWellFormed (hdrained hnone) received.bytes,
          fun hcount => ?_⟩
        have hbound := hfull hnone hcount window hwindow
        rw [hcame, Option.getD_some, ← hbytes] at hbound
        show (((w.data l r).buffer.startWrite.2.unread.length + received.bytes.length : Nat) :
          Int) ≤ e.writeCount ans
        rw [hsame]
        exact hbound

/-! ## The request -/

theorem Upstream.setData (h : Upstream l r w) {d : ExecutorData}
    (hfd0 : d.fd0 = (w.data l r).fd0) (hfd1 : d.fd1 = (w.data l r).fd1) :
    Upstream l r (w.setData l r d) := by
  refine ⟨?_, ?_⟩
  · rw [World.setData_self, hfd1]
    exact h.server
  · rw [World.setData_self, hfd0, hfd1]
    exact h.ne

theorem watchResponse_inv (hb : Base l r id0 w) (hup : Upstream l r w)
    (hfr : (w.data l r).state = .forwardResponse) (h0 : (w.data l r).pollData0 = none)
    (hnil : (w.data l r).buffer.unread = []) :
    Ensures (watchResponse ans l r) w (fun res w' => res = .ok → Inv l r id0 w') := by
  simp only [watchResponse, ensures_bind, ensures_getData, ensures_ite, ensures_pure]
  refine editPollFd_spec.mono (fun res w' h => ⟨fun _ hok => (by cases hok), fun hres _ => ?_⟩)
  rcases h with ⟨_, p, k, hp, hmod, rfl⟩ | ⟨hbad, _⟩
  · obtain ⟨reg, _, hk⟩ := Kernel.ctlMod_some hmod
    have hstreams := Kernel.SameStreams.ctlMod hmod
    have h1 : (w.data l r).pollData1 = some p := by
      rcases hb.slots.dropPollData_cases hp with ⟨heq, _⟩ | ⟨_, _, h1, _⟩
      · exact absurd heq hup.ne
      · exact h1
    have hwatched : Watched (w.setKernel k) l (w.data l r).fd1 EPOLLIN := by
      have hin : hasEvent (watched EPOLLIN) EPOLLIN = true := by decide
      refine ⟨{ ptr := p, events := watched EPOLLIN, serial := reg.serial }, ?_, hin⟩
      rw [World.setKernel_kernel, hk]
      exact Kernel.setRegistration_self _
    refine Inv.responding ?_ ⟨⟨?_, hup.ne⟩, fun _ => hwatched, fun hnone => ?_⟩ hfr (fun _ => hnil)
    · exact hb.update rfl (hb.slots.setKernel k) hb.buffer rfl (hstreams.openId? _)
        (fun hne => absurd h0 hne)
    · obtain ⟨id1, hid1⟩ := hup.server
      exact ⟨id1, (hstreams.openId? _).trans hid1⟩
    · rw [World.setKernel_data, h1] at hnone
      cases hnone
  · exact absurd hbad (by omega)

theorem request_inv (hb : Base l r id0 w) (hup : Upstream l r w)
    (hfr : (w.data l r).state = .forwardRequest) (h0 : (w.data l r).pollData0 = none) :
    Ensures (ProxyExecutorReadWrite.processForwardRequest ans l r) w (fun res w' =>
      res = .ok → Inv l r id0 w') := by
  -- The counters and the buffer may change while the request is sent.
  have hrequesting : ∀ w' d, Base l r id0 w' → Upstream l r w' → w'.data l r = d →
      d.state = .forwardRequest → d.pollData0 = none → Inv l r id0 w' := by
    intro w' d hb' hup' hd hs hp
    exact Inv.requesting hb' hup' (Or.inr (by rw [hd]; exact hs)) (by rw [hd]; exact hp)
  simp only [ProxyExecutorReadWrite.processForwardRequest,
    ProxyExecutor.processForwardRequest, ensures_bind,
    ensures_getData]
  cases hstart : (w.data l r).buffer.startRead with
  | none => exact ensures_pure.mpr (fun h => by cases h)
  | some window =>
    have hwindow := startRead_some hb.buffer.toWellFormed hstart
    obtain ⟨id1, hserver⟩ := hup.server
    have hlen : ((w.data l r).buffer.slice window.start (window.start + window.size)).length =
        window.size := by
      have hinside := hwindow.inside
      rw [slice_length hinside]
      omega
    simp only [ensures_bind]
    refine (write_spec hserver).mono (fun written w1 hw => ?_)
    obtain ⟨hcount, rfl⟩ := hw
    rw [hlen] at hcount
    generalize hbytes : ((w.data l r).buffer.slice window.start (window.start + window.size)).take
      written.result.toNat = bytes
    have hb1 : Base l r id0 (w.setKernel (w.kernel.send id1 bytes)) :=
      ⟨hb.slots.setKernel _, hb.buffer, hb.client, hb.watched0⟩
    have hup1 : Upstream l r (w.setKernel (w.kernel.send id1 bytes)) := ⟨⟨id1, hserver⟩, hup.ne⟩
    rw [ensures_ite, ensures_ite]
    refine ⟨fun _ => ⟨fun _ => ?_, fun _ => ?_⟩, fun hpos => ?_⟩
    · simp only [ensures_bind, ensures_countRetry, ensures_pure]
      exact fun _ => hrequesting _ _ (hb1.setData hb1.buffer rfl rfl rfl) (hup1.setData rfl rfl)
        (World.setData_self ..) hfr h0
    · exact ensures_pure.mpr (fun h => by cases h)
    · have hle : written.result.toNat ≤ window.size := by omega
      simp only [ensures_bind, ensures_clearRetries, ensures_modifyData, ensures_ite,
        ensures_pure, World.setData_self, World.setKernel_data]
      have hb2 : Base l r id0 ((w.setKernel (w.kernel.send id1 bytes)).setData l r
          { w.data l r with retryCounter := 0 }) := hb1.setData hb1.buffer rfl rfl rfl
      have hup2 : Upstream l r ((w.setKernel (w.kernel.send id1 bytes)).setData l r
          { w.data l r with retryCounter := 0 }) := hup1.setData rfl rfl
      have hb3 := hb2.setData (d := { w.data l r with
          retryCounter := 0
          buffer := (w.data l r).buffer.endRead written.result.toNat })
        (hb.buffer.endRead hwindow hle) (by rw [World.setData_self]) (by rw [World.setData_self])
        (by rw [World.setData_self])
      have hup3 := hup2.setData (d := { w.data l r with
          retryCounter := 0
          buffer := (w.data l r).buffer.endRead written.result.toNat })
        (by rw [World.setData_self]) (by rw [World.setData_self])
      refine ⟨fun _ => ?_, fun _ _ => hrequesting _ _ hb3 hup3 (World.setData_self ..) hfr h0⟩
      have hb4 := hb3.setData (d := { w.data l r with
          retryCounter := 0
          buffer := ((w.data l r).buffer.endRead written.result.toNat).clear
          state := .forwardResponse })
        (hb.buffer.endRead hwindow hle).clear (by rw [World.setData_self])
        (by rw [World.setData_self]) (by rw [World.setData_self])
      have hup4 := hup3.setData (d := { w.data l r with
          retryCounter := 0
          buffer := ((w.data l r).buffer.endRead written.result.toNat).clear
          state := .forwardResponse })
        (by rw [World.setData_self]) (by rw [World.setData_self])
      refine watchResponse_inv hb4 hup4 ?_ ?_ ?_
      · rw [World.setData_self]
      · rw [World.setData_self]
        exact h0
      · rw [World.setData_self]
        exact unread_of_le (Nat.le_refl 0)

theorem connect_inv (hb : Base l r id0 w) (hup : Upstream l r w)
    (hwc : (w.data l r).state = .waitConnect) (h0 : (w.data l r).pollData0 = none) :
    Ensures (ProxyExecutorReadWrite.processWaitConnect ans l r) w (fun res w' =>
      res = .ok → Inv l r id0 w') := by
  simp only [ProxyExecutorReadWrite.processWaitConnect, ProxyExecutor.processWaitConnect,
    ensures_ite, ensures_bind,
    ensures_setState, ensures_countRetry, ensures_pure]
  refine ⟨fun _ => ?_, fun _ => ⟨fun _ _ => ?_, fun _ h => (by cases h)⟩⟩
  · refine request_inv (hb.setData hb.buffer rfl rfl rfl) (hup.setData rfl rfl) ?_ ?_
    · rw [World.setData_self]
    · rw [World.setData_self]
      exact h0
  · refine Inv.requesting (hb.setData hb.buffer rfl rfl rfl) (hup.setData rfl rfl) (Or.inl ?_) ?_
    · rw [World.setData_self]
      exact hwc
    · rw [World.setData_self]
      exact h0

/-- One call of `process`. -/
theorem process_inv {e : Executor} {fd : Int} {events : Nat} (h : Inv l r id0 w)
    (hfull : FullWrite e l r w ans fd events) :
    Ensures (ProxyExecutorReadWrite.process e ans l r fd events) w (fun res w' =>
      res = .ok → Inv l r id0 w') := by
  unfold ProxyExecutorReadWrite.process ProxyExecutor.process
  simp only [ensures_bind, ensures_getData, ensures_ite, ensures_pure, handlers]
  refine ⟨fun hwc => ?_, fun _ => ⟨fun hfr => ?_, fun _ => ⟨fun hread => ?_, fun hnot =>
    ⟨fun hwrite => ?_, fun _ hok => (by cases hok)⟩⟩⟩⟩
  · cases h with
    | requesting base upstream _ unwatched => exact connect_inv base upstream hwc.1 unwatched
    | responding _ _ state _ => rw [hwc.1] at state; cases state
    | finishing _ state _ _ => rw [hwc.1] at state; cases state
  · cases h with
    | requesting base upstream _ unwatched => exact request_inv base upstream hfr.1 unwatched
    | responding _ _ state _ => rw [hfr.1] at state; cases state
    | finishing _ state _ _ => rw [hfr.1] at state; cases state
  · cases h with
    | requesting _ _ state _ => rcases state with hs | hs <;> rw [hread.1] at hs <;> cases hs
    | finishing _ state _ _ => rw [hread.1] at state; cases state
    | responding base upstream state drained =>
      refine read_inv base upstream state drained (fun h0 hpos window hwindow => ?_)
      have hbound := hfull (Or.inl state) h0 hpos
      unfold arriving at hbound
      rw [if_pos hread, hwindow] at hbound
      exact hbound
  · have hnone : arriving (w.data l r) ans fd events = 0 := if_neg hnot
    cases h with
    | requesting _ _ state _ =>
      rcases hwrite.1 with hw | hw <;> rcases state with hs | hs <;> rw [hw] at hs <;> cases hs
    | responding base upstream state drained =>
      refine write_inv base (Or.inl ⟨state, upstream⟩) (fun h0 => ?_)
      have hnil := drained h0
      refine ⟨Nat.le_of_eq ((unread_eq_nil_iff base.buffer.toWellFormed).mp hnil), fun hpos => ?_⟩
      have hbound := hfull (Or.inl state) h0 hpos
      rwa [hnone, Nat.add_zero] at hbound
    | finishing base state watched unread =>
      exact write_inv base (Or.inr state) (fun h0 => absurd h0 watched)

end

/-! ## Runs -/

theorem Watched.elsewhere {l r : Nat} {ids : List Nat} {w w' : World} {fd : Int} {flag : Nat}
    (h : Watched w l fd flag) (hu : Untouched l r ids w w') (hfd : (w.data l r).Holds fd) :
    Watched w' l fd flag :=
  h.congr (hu.epoll fd hfd)

theorem NotParked.elsewhere {l r : Nat} {ids : List Nat} {w w' : World} (h : NotParked l r w)
    (hu : Untouched l r ids w w') : NotParked l r w' := by
  intro hstate
  rw [hu.data] at hstate ⊢
  obtain ⟨hsome, hnil⟩ := h hstate
  exact ⟨fun hne => (hsome hne).elsewhere hu (Or.inl rfl),
    fun heq => ⟨(hnil heq).1, (hnil heq).2.elsewhere hu (Or.inr (Or.inl rfl))⟩⟩

theorem Inv.elsewhere {l r id0 : Nat} {ids : List Nat} {w w' : World} (h : Inv l r id0 w)
    (hu : Untouched l r ids w w') : Inv l r id0 w' := by
  have hopen : ∀ fd, (w.data l r).Holds fd → w'.kernel.openId? fd = w.kernel.openId? fd := by
    intro fd hfd
    unfold Kernel.openId?
    rw [hu.table fd hfd]
  have hbase : ∀ hb : Base l r id0 w, Base l r id0 w' := fun hb =>
    hb.update hu.data hu.slots hb.buffer rfl (hopen _ (Or.inl rfl))
      (fun h0 => (hb.watched0 h0).elsewhere hu (Or.inl rfl))
  have hupstream : ∀ hup : Upstream l r w, Upstream l r w' := by
    intro hup
    refine ⟨?_, ?_⟩
    · rw [hu.data, hopen _ (Or.inr (Or.inl rfl))]
      exact hup.server
    · rw [hu.data]
      exact hup.ne
  cases h with
  | requesting base upstream state unwatched =>
    refine Inv.requesting (hbase base) (hupstream upstream) ?_ ?_
    · rw [hu.data]
      exact state
    · rw [hu.data]
      exact unwatched
  | responding base upstream state drained =>
    refine Inv.responding (hbase base) ⟨hupstream upstream.toUpstream, ?_, ?_⟩ ?_ ?_
    · rw [hu.data]
      exact fun hne => (upstream.watched1 hne).elsewhere hu (Or.inr (Or.inl rfl))
    · rw [hu.data]
      exact upstream.unread1
    · rw [hu.data]
      exact state
    · rw [hu.data]
      exact drained
  | finishing base state watched unread =>
    refine Inv.finishing (hbase base) ?_ ?_ ?_
    · rw [hu.data]
      exact state
    · rw [hu.data]
      exact watched
    · rw [hu.data]
      exact unread

/-- A successful `up`. -/
theorem up_inv {ans : Answers} {w : World} {l r id0 : Nat} {request : Bytes}
    (h : Handed w l r request id0) :
    Ensures (ProxyExecutorReadWrite.up ans l r) w (fun res w' => res = 0 → Inv l r id0 w') := by
  refine (ProxyExecutor.up_spec h).mono (fun res w' hup hres => ?_)
  obtain ⟨id1, hstarted⟩ := hup hres
  refine Inv.requesting ⟨hstarted.slots, ?_, hstarted.client, ?_⟩
    ⟨⟨id1, hstarted.server⟩, hstarted.ne⟩ hstarted.state.symm hstarted.unwatched
  · rw [hstarted.buffer]
    refine ⟨h.buffer, ?_⟩
    rw [h.size]
    decide
  · rw [hstarted.unwatched]
    exact fun hne => absurd rfl hne

/-- A connection waits for an event that lets it go on, after every call of its run, when no
write to a client that is not watched is short. -/
theorem run_notParked {e : Executor} {l r id0 : Nat} {ids : List Nat} {request : Bytes}
    {ans : Answers} {w0 w : World} {s : ProxyRun} (h : Handed w0 l r request id0)
    (hup : ProxyExecutorReadWrite.up ans l r w0 = some (0, w))
    (hrun : ProxyRun.Reach (ProxyExecutorReadWrite.process e · l r) l r ids
      (FullWrite e l r) w s) (hok : s.last = .ok) : NotParked l r s.world := by
  have hinv : Inv l r id0 w := up_inv h 0 w hup rfl
  refine (hrun.ensures (Inv l r id0) (fun res w' => res = .ok → NotParked l r w') ?_ ?_ ?_ hinv
    (fun _ => hinv.notParked)).1 hok
  · exact fun w' ans' fd events hi hfull => (process_inv hi hfull).mono (fun res w'' hpost =>
      ⟨fun hres => (hpost hres).notParked, hpost⟩)
  · exact fun w' w'' res hq hu hres => (hq hres).elsewhere hu
  · exact fun w' w'' hi hu => hi.elsewhere hu

instance (e : Executor) (l r : Nat) (w : World) (ans : Answers) (fd : Int) (events : Nat) :
    Decidable (FullWrite e l r w ans fd events) :=
  inferInstanceAs (Decidable (_ → _ → _ → _))

/-- The request is sent and two bytes of a response come, which the client takes. -/
def fullCalls : List ProxyRun.Call :=
  [ { answers := { write := { count := 3 } }, fd := 6, events := EPOLLOUT },
    { answers := { read := { bytes := some [1, 2] }, write := { count := 2 } }
      fd := 6
      events := EPOLLIN } ]

theorem run_notParked_fullCalls :
    ∃ w s, ProxyRun.session (ProxyExecutorReadWrite.up · 0 0)
      (ProxyExecutorReadWrite.process .proxyReadWrite · 0 0) (FullWrite .proxyReadWrite 0 0)
      { socket := 6 } fullCalls (handedWorld getBytes) = some (w, s) ∧ NotParked 0 0 s.world := by
  have hrun : (ProxyRun.session (ProxyExecutorReadWrite.up · 0 0)
      (ProxyExecutorReadWrite.process .proxyReadWrite · 0 0) (FullWrite .proxyReadWrite 0 0)
      { socket := 6 } fullCalls (handedWorld getBytes)).map (fun x => x.2.last) = some .ok := by
    decide +kernel
  obtain ⟨⟨w, s⟩, hsession, hok⟩ := Option.map_eq_some_iff.mp hrun
  obtain ⟨hup, hreach⟩ := ProxyRun.session_some 0 0 [] hsession
  exact ⟨w, s, hsession, run_notParked handedWorld_handed hup hreach hok⟩

/-- The client takes one byte of three, and one more when the response ends. -/
def shortCalls : List ProxyRun.Call :=
  [ { answers := { write := { count := 3 } }, fd := 6, events := EPOLLOUT },
    { answers := { read := { bytes := some [1, 2, 3] }, write := { count := 1 } }
      fd := 6
      events := EPOLLIN },
    { answers := { read := { bytes := some [] }, write := { count := 1 } }
      fd := 6
      events := EPOLLIN } ]

/-- The last byte stays in the buffer and nothing is watched. -/
theorem shortCalls_parked :
    Handed (handedWorld getBytes) 0 0 getBytes 0 ∧ ∃ w s,
      ProxyRun.session (ProxyExecutorReadWrite.up · 0 0)
        (ProxyExecutorReadWrite.process .proxyReadWrite · 0 0) (fun _ _ _ _ => True)
        { socket := 6 } shortCalls (handedWorld getBytes) = some (w, s) ∧
      ProxyRun.Reach (ProxyExecutorReadWrite.process .proxyReadWrite · 0 0) 0 0 []
        (fun _ _ _ _ => True) w s ∧
      s.last = .ok ∧ ¬ NotParked 0 0 s.world := by
  refine ⟨handedWorld_handed, ?_⟩
  have hrun : (ProxyRun.session (ProxyExecutorReadWrite.up · 0 0)
      (ProxyExecutorReadWrite.process .proxyReadWrite · 0 0) (fun _ _ _ _ => True)
      { socket := 6 } shortCalls (handedWorld getBytes)).map (fun x =>
        (x.2.last, (x.2.world.data 0 0).state, (x.2.world.data 0 0).buffer.unread,
          (x.2.world.data 0 0).fd0, x.2.world.kernel.epoll 0 5)) =
      some (.ok, .forwardResponseOnlyWrite, [3], 5, none) := by
    decide +kernel
  obtain ⟨⟨w, s⟩, hsession, hshape⟩ := Option.map_eq_some_iff.mp hrun
  obtain ⟨_, hreach⟩ := ProxyRun.session_some 0 0 [] hsession
  simp only [Prod.mk.injEq] at hshape
  obtain ⟨hok, hstate, hunread, hfd0, hepoll⟩ := hshape
  refine ⟨w, s, hsession, hreach, hok, fun hnot => ?_⟩
  obtain ⟨reg, hreg, _⟩ := (hnot (Or.inr hstate)).1 (by rw [hunread]; simp)
  rw [hfd0, hepoll] at hreg
  cases hreg

end ProxyParking
end EpollHttp
