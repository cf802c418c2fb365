import EpollHttp.Lib.Fifo
import EpollHttp.Executors.ProxyRun
import EpollHttp.Executors.FileExecutor

/-
`SslFileExecutor` sends a file through the ring buffer.

It reads as much as the buffer takes, so it may hold more of a file that grew than the headers
promised.  What it sends is in order; the promise is kept as long as no call sends more than is
left of it.
-/

namespace EpollHttp
namespace SslFileServing

open Program TransferRingBuffer SslFileExecutor

/-- A response: where its data is, the identities of the client and the file, the length that the
headers promised, and what was sent to the client before. -/
structure Response where
  l : Nat
  r : Nat
  id0 : Nat
  idFile : Nat
  contentLength : Nat
  base : Bytes
  ids : id0 ≠ idFile

/-- A connection behind its headers. -/
structure Handed (c : Response) (w : World) : Prop where
  slots : Slots w c.l c.r
  client : w.kernel.openId? (w.data c.l c.r).fd0 = some c.id0
  file : w.kernel.openId? (w.data c.l c.r).fd1 = some c.idFile
  state : (w.data c.l c.r).state = .sendFile
  buffer : (w.data c.l c.r).buffer.WellFormed
  unread : (w.data c.l c.r).buffer.unread = []
  toSend : (w.data c.l c.r).bytesToSend = c.contentLength
  sent : w.kernel.sent c.id0 = c.base
  taken : w.kernel.taken c.idFile = []

/-- The number of bytes that the call reads from the file. -/
def arriving (d : ExecutorData) (ans : Answers) : Nat :=
  if 0 < d.fd1 then
    match d.buffer.startWrite.1 with
    | some window => ((ans.read.bytes.getD []).take window.size).length
    | none => 0
  else 0

/-- The file has not given more than was promised, or `SSL_write` takes no more than is left. -/
def Bounded (c : Response) (w : World) (ans : Answers) : Prop :=
  (w.kernel.taken c.idFile).length + arriving (w.data c.l c.r) ans ≤ c.contentLength ∨
    ans.sslWrite ≤ (w.data c.l c.r).bytesToSend

instance (c : Response) (w : World) (ans : Answers) : Decidable (Bounded c w ans) :=
  inferInstanceAs (Decidable (_ ∨ _))

/-- Where the body stands when a call returned `res`. -/
structure Progress (c : Response) (res : ProcessResult) (w : World) : Prop where
  toSend : 0 ≤ (w.data c.l c.r).bytesToSend
  order : ∃ delivered, w.kernel.sent c.id0 = c.base ++ delivered ∧
    delivered <+: w.kernel.taken c.idFile ∧ delivered.length ≤ c.contentLength
  finished : res = .removeExecutorOk ↔
    (w.kernel.sent c.id0).length = c.base.length + c.contentLength

/-! ## The invariant -/

structure Sending (c : Response) (q : Fifo UInt8) (w : World) : Prop where
  slots : Slots w c.l c.r
  client : w.kernel.openId? (w.data c.l c.r).fd0 = some c.id0
  file : 0 < (w.data c.l c.r).fd1 → w.kernel.openId? (w.data c.l c.r).fd1 = some c.idFile
  state : (w.data c.l c.r).state = .sendFile
  buffer : (w.data c.l c.r).buffer.WellFormed
  unread : (w.data c.l c.r).buffer.unread = q.held
  taken : w.kernel.taken c.idFile = q.put
  sent : w.kernel.sent c.id0 = c.base ++ q.got
  toSend : (w.data c.l c.r).bytesToSend = c.contentLength - q.got.length
  more : q.got.length < c.contentLength

/-- What a call ends with. -/
structure Post (c : Response) (res : ProcessResult) (w : World) : Prop where
  progress : Progress c res w
  inv : res = .ok → ∃ q, Sending c q w

section
variable {c : Response} {q : Fifo UInt8} {w w' : World} {ans : Answers}

theorem Sending.progress {res : ProcessResult} (h : Sending c q w)
    (hres : res ≠ .removeExecutorOk) : Progress c res w := by
  have hmore := h.more
  have htoSend := h.toSend
  refine ⟨by omega, ⟨q.got, h.sent, ?_, Nat.le_of_lt hmore⟩, fun heq => absurd heq hres, ?_⟩
  · rw [h.taken]
    exact q.got_front
  · rw [h.sent, List.length_append]
    intro heq
    omega

theorem Post.ok (h : Sending c q w) : Post c .ok w := ⟨h.progress (by decide), fun _ => ⟨q, h⟩⟩

theorem Post.error (h : Sending c q w) : Post c .removeExecutorError w :=
  ⟨h.progress (by decide), fun hok => by cases hok⟩

/-- Only fields that do not matter for the body are assigned. -/
theorem Sending.setData (h : Sending c q w) {d : ExecutorData}
    (hstate : d.state = (w.data c.l c.r).state) (hfd0 : d.fd0 = (w.data c.l c.r).fd0)
    (hfd1 : d.fd1 = (w.data c.l c.r).fd1) (h0 : d.pollData0 = (w.data c.l c.r).pollData0)
    (h1 : d.pollData1 = (w.data c.l c.r).pollData1) (hbuffer : d.buffer.WellFormed)
    (hunread : d.buffer.unread = (w.data c.l c.r).buffer.unread)
    (htoSend : d.bytesToSend = (w.data c.l c.r).bytesToSend) :
    Sending c q (w.setData c.l c.r d) := by
  refine ⟨h.slots.setData h0 h1, ?_, ?_, ?_, ?_, ?_, h.taken, h.sent, ?_, h.more⟩
  all_goals rw [World.setData_self]
  · rw [hfd0]
    exact h.client
  · rw [hfd1]
    exact h.file
  · exact hstate.trans h.state
  · exact hbuffer
  · exact hunread.trans h.unread
  · exact htoSend.trans h.toSend

theorem Sending.ne (h : Sending c q w) (hfd : 0 < (w.data c.l c.r).fd1) :
    (w.data c.l c.r).fd1 ≠ (w.data c.l c.r).fd0 := by
  intro heq
  have hfile := h.file hfd
  rw [heq, h.client] at hfile
  exact c.ids (Option.some.inj hfile)

/-! ## One call -/

theorem counted_post {operationOk : Bool} (h : Sending c q w) :
    Ensures (countOperation c.l c.r operationOk) w (fun _ w' => Post c .ok w') := by
  cases operationOk with
  | true =>
    simp only [countOperation, if_true, ensures_clearRetries]
    exact Post.ok (h.setData rfl rfl rfl rfl rfl h.buffer rfl rfl)
  | false =>
    simp only [countOperation, ensures_countRetry, Bool.false_eq_true, if_false]
    exact Post.ok (h.setData rfl rfl rfl rfl rfl h.buffer rfl rfl)

/-- What `readFile` leaves: the bytes that came lie behind the ones in the buffer. -/
structure Filled (c : Response) (q : Fifo UInt8) (w : World) (ans : Answers) (w' : World) :
    Prop where
  came : ∃ bytes, bytes.length = arriving (w.data c.l c.r) ans ∧ Sending c (q.write bytes) w'
  toSend : (w'.data c.l c.r).bytesToSend = (w.data c.l c.r).bytesToSend

theorem Sending.write_nil (h : Sending c q w) : Sending c (q.write []) w := by
  refine ⟨h.slots, h.client, h.file, h.state, h.buffer, ?_, ?_, h.sent, h.toSend, h.more⟩
  · exact h.unread.trans (List.append_nil _).symm
  · exact h.taken.trans (List.append_nil _).symm

theorem readFile_spec (h : Sending c q w) :
    Ensures (readFile ans c.l c.r) w (fun res w' =>
      (res = none ∧ Sending c q w') ∨ (∃ operationOk, res = some operationOk) ∧
        Filled c q w ans w') := by
  simp only [readFile, ensures_bind, ensures_getData, ensures_ite, ensures_pure]
  refine ⟨fun hfd => ?_, fun hfd => Or.inr ⟨⟨_, rfl⟩, ⟨[], ?_, h.write_nil⟩, rfl⟩⟩
  · obtain ⟨hwf, hsame, _⟩ := startWrite_snd h.buffer
    have hwrapped : Sending c q (w.setData c.l c.r
        { w.data c.l c.r with buffer := (w.data c.l c.r).buffer.startWrite.2 }) :=
      h.setData rfl rfl rfl rfl rfl hwf hsame rfl
    simp only [ensures_modifyData]
    cases hwindow : (w.data c.l c.r).buffer.startWrite.1 with
    | none =>
      refine ensures_pure.mpr (Or.inr ⟨⟨_, rfl⟩, ⟨[], ?_, hwrapped.write_nil⟩, ?_⟩)
      · unfold arriving
        rw [if_pos hfd, hwindow]
        rfl
      · rw [World.setData_self]
    | some window =>
      have hfree := startWrite_some h.buffer hwindow
      have hopen : (w.setData c.l c.r { w.data c.l c.r with
          buffer := (w.data c.l c.r).buffer.startWrite.2 }).kernel.openId?
            (w.data c.l c.r).fd1 = some c.idFile := h.file hfd
      simp only [ensures_bind]
      refine (read_spec hopen).mono (fun received w1 hreceived => ?_)
      rw [ensures_ite, ensures_ite]
      rcases hreceived with ⟨hres, rfl⟩ | ⟨came, hcame, hbytes, hres, rfl⟩
      · exact ⟨fun _ => ensures_pure.mpr (Or.inl ⟨rfl, hwrapped⟩), fun hpos => by omega⟩
      · have harriving : received.bytes.length = arriving (w.data c.l c.r) ans := by
          unfold arriving
          rw [if_pos hfd, hwindow, hcame, hbytes]
          rfl
        refine ⟨fun hneg => by omega, fun _ => ⟨fun hzero => ?_, fun hne => ?_⟩⟩
        · -- The file is at its end.
          have hnil : received.bytes = [] := by
            rw [← List.length_eq_zero_iff]
            omega
          rw [hnil] at harriving ⊢
          have htaken : (w.kernel.take c.idFile []).taken c.idFile = w.kernel.taken c.idFile := by
            show Function.update w.kernel.taken c.idFile (w.kernel.taken c.idFile ++ []) _ = _
            rw [Function.update_self, List.append_nil]
          simp only [ensures_bind, ensures_pure]
          have hcloseFd := closeFd1_spec (hwrapped.slots.setKernel (w.kernel.take c.idFile []))
            (by
              rw [World.setKernel_data]
              exact hwrapped.ne (by rw [World.setData_self]; exact hfd))
          rw [World.setKernel_data, World.setData_self] at hcloseFd
          refine hcloseFd.mono (fun _ w2 hclosed => Or.inr ⟨⟨_, rfl⟩, ⟨[], harriving, ?_⟩, ?_⟩)
          · obtain ⟨p1, hdata⟩ := hclosed.data
            rw [World.setKernel_data, World.setData_self] at hdata
            have hopen0 := hclosed.opened (w.data c.l c.r).fd0
            rw [World.setKernel_data, World.setData_self] at hopen0
            refine Sending.write_nil ⟨hclosed.slots, ?_, ?_, ?_, ?_, ?_, ?_, ?_, ?_, h.more⟩
            · rw [hdata]
              exact (hopen0 (Ne.symm (h.ne hfd))).trans h.client
            · rw [hdata]
              intro hpos
              have hbad : (0 : Int) < -1 := hpos
              omega
            · rw [hdata]
              exact h.state
            · rw [hdata]
              exact hwf
            · rw [hdata]
              exact hsame.trans h.unread
            · rw [hclosed.taken]
              exact htaken.trans h.taken
            · rw [hclosed.sent]
              exact h.sent
            · rw [hdata]
              exact h.toSend
          · obtain ⟨p1, hdata⟩ := hclosed.data
            rw [hdata, World.setKernel_data, World.setData_self]
        · have hlen : received.bytes.length ≤ window.size := by
            rw [hbytes, List.length_take]
            exact Nat.min_le_left _ _
          obtain ⟨hwf', hunread'⟩ := fill_endWrite hwf hfree hlen
          simp only [ensures_bind, ensures_modifyData, ensures_pure, World.setData_self,
            World.setKernel_data]
          refine Or.inr ⟨⟨_, rfl⟩, ⟨received.bytes, harriving, ?_⟩, ?_⟩
          · refine ⟨(hwrapped.slots.setKernel _).setData ?_ ?_, ?_, ?_, ?_, ?_, ?_, ?_, h.sent, ?_,
              h.more⟩
            · rw [World.setKernel_data, World.setData_self]
            · rw [World.setKernel_data, World.setData_self]
            · rw [World.setData_self]
              exact h.client
            · rw [World.setData_self]
              exact h.file
            · rw [World.setData_self]
              exact h.state
            · rw [World.setData_self]
              exact hwf'
            · rw [World.setData_self]
              refine hunread'.trans ?_
              rw [hsame, h.unread]
              rfl
            · show Function.update w.kernel.taken c.idFile
                (w.kernel.taken c.idFile ++ received.bytes) c.idFile = _
              rw [Function.update_self, h.taken]
              rfl
            · rw [World.setData_self]
              exact h.toSend
          · rw [World.setData_self]
  · unfold arriving
    rw [if_neg hfd]
    rfl

/-- The client was sent the first `n` bytes of what the buffer holds. -/
theorem wrote {n : Nat} {bytes : Bytes} {d : ExecutorData} (h : Sending c q w)
    (hbytes : bytes = (w.data c.l c.r).buffer.unread.take n)
    (hn : n ≤ (w.data c.l c.r).buffer.unread.length)
    (hbuffer : d.buffer.WellFormed ∧ d.buffer.unread = (w.data c.l c.r).buffer.unread.drop n)
    (hstate : d.state = (w.data c.l c.r).state) (hfd0 : d.fd0 = (w.data c.l c.r).fd0)
    (hfd1 : d.fd1 = (w.data c.l c.r).fd1) (h0 : d.pollData0 = (w.data c.l c.r).pollData0)
    (h1 : d.pollData1 = (w.data c.l c.r).pollData1)
    (htoSend : d.bytesToSend = (w.data c.l c.r).bytesToSend - n)
    (hmore : 0 < d.bytesToSend) :
    Sending c (q.read n) ((w.setKernel (w.kernel.send c.id0 bytes)).setData c.l c.r d) := by
  have hold := h.toSend
  rw [h.unread] at hbytes hn hbuffer
  have hgot : (q.read n).got.length = q.got.length + n := by
    show (q.got ++ q.held.take n).length = _
    rw [List.length_append, List.length_take, Nat.min_eq_left hn]
  refine ⟨(h.slots.setKernel _).setData h0 h1, ?_, ?_, ?_, ?_, ?_, h.taken, ?_, ?_, by omega⟩
  · rw [World.setData_self, hfd0]
    exact h.client
  · rw [World.setData_self, hfd1]
    exact h.file
  · rw [World.setData_self]
    exact hstate.trans h.state
  · rw [World.setData_self]
    exact hbuffer.1
  · rw [World.setData_self]
    exact hbuffer.2
  · show Function.update w.kernel.sent c.id0 (w.kernel.sent c.id0 ++ bytes) c.id0 =
      c.base ++ (q.got ++ q.held.take n)
    rw [Function.update_self, h.sent, hbytes, List.append_assoc]
  · rw [World.setData_self]
    omega

/-- `process_sendFile`, when no call sends more than is left. -/
theorem sendFile_post (h : Sending c q w) (hbounded : Bounded c w ans) :
    Ensures (SslFileExecutor.processSendFile ans c.l c.r) w (Post c) := by
  simp only [SslFileExecutor.processSendFile, ensures_bind]
  refine (readFile_spec h).mono (fun file w1 hfile => ?_)
  rcases hfile with ⟨rfl, hsame⟩ | ⟨⟨operationOk, rfl⟩, ⟨bytes, hlen, h1⟩, htoSend⟩
  · exact ensures_pure.mpr (Post.error hsame)
  · have hput : (q.write bytes).put.length = (w.kernel.taken c.idFile).length + bytes.length := by
      rw [h.taken]
      exact List.length_append ..
    have hput' : (q.write bytes).put.length = (q.write bytes).got.length +
        (q.write bytes).held.length := by
      rw [(q.write bytes).order, List.length_append]
    have hleft := h1.toSend
    simp only [ensures_bind, ensures_getData]
    cases hstart : (w1.data c.l c.r).buffer.startRead with
    | none =>
      simp only [ensures_ite, ensures_bind, ensures_pure]
      exact ⟨fun _ => Post.error h1, fun _ => counted_post h1⟩
    | some window =>
      have hwindow := startRead_some h1.buffer hstart
      have hslice := hwindow.slice_eq h1.buffer (Nat.le_refl _)
      have hfits : window.size ≤ (w1.data c.l c.r).buffer.unread.length := by
        have hinside := hwindow.inside
        have hsize := congrArg List.length hslice
        rw [slice_length hinside, List.length_take] at hsize
        omega
      simp only [ensures_bind]
      refine (sslWrite_spec h1.client).mono (fun written w2 hwritten => ?_)
      obtain ⟨hresult, rfl⟩ := hwritten
      rw [hslice, List.length_take, Nat.min_eq_left hfits] at hresult
      rw [hslice, List.take_take]
      have hle : written.toNat ≤ window.size := by omega
      rw [Nat.min_eq_left hle, ensures_ite]
      refine ⟨fun hpos => ?_, fun hneg => ?_⟩
      · -- No more was sent than was left.
        have hatMost : written ≤ (w1.data c.l c.r).bytesToSend := by
          rw [h1.unread] at hfits
          rcases hbounded with hall | hssl
          · omega
          · omega
        have hbuffer := And.intro (endRead_wellFormed h1.buffer hwindow hle)
          (endRead_unread h1.buffer hwindow hle)
        simp only [ensures_bind, ensures_modifyData, ensures_getData, ensures_ite, ensures_pure,
          World.setData_self, World.setKernel_data]
        refine ⟨fun hzero => ?_, fun hne => ?_⟩
        · have hgot : (w1.kernel.send c.id0 ((w1.data c.l c.r).buffer.unread.take
              written.toNat)).sent c.id0 = c.base ++ ((q.write bytes).read written.toNat).got := by
            show Function.update w1.kernel.sent c.id0 _ c.id0 =
              c.base ++ ((q.write bytes).got ++ (q.write bytes).held.take written.toNat)
            rw [Function.update_self, h1.sent, h1.unread, List.append_assoc]
          have hlast : ((q.write bytes).read written.toNat).got.length = c.contentLength := by
            show ((q.write bytes).got ++ (q.write bytes).held.take written.toNat).length = _
            rw [h1.unread] at hfits
            rw [List.length_append, List.length_take]
            omega
          refine ⟨⟨?_, ⟨_, hgot, ?_, Nat.le_of_eq hlast⟩, fun _ => ?_, fun _ => rfl⟩,
            fun hok => (by cases hok)⟩
          · rw [World.setData_self]
            exact Int.le_of_eq hzero.symm
          · show _ <+: w1.kernel.taken c.idFile
            rw [h1.taken]
            exact ((q.write bytes).read written.toNat).got_front
          · rw [World.setData_kernel, World.setKernel_kernel, hgot, List.length_append, hlast]
        · have hsending : Sending c ((q.write bytes).read written.toNat)
              ((w1.setKernel (w1.kernel.send c.id0 ((w1.data c.l c.r).buffer.unread.take
                written.toNat))).setData c.l c.r { w1.data c.l c.r with
                  buffer := (w1.data c.l c.r).buffer.endRead written.toNat
                  bytesToSend := (w1.data c.l c.r).bytesToSend - written }) := by
            refine wrote h1 rfl (by omega) hbuffer rfl rfl rfl rfl rfl ?_ ?_
            · show (w1.data c.l c.r).bytesToSend - written =
                (w1.data c.l c.r).bytesToSend - (written.toNat : Int)
              omega
            · show 0 < (w1.data c.l c.r).bytesToSend - written
              omega
          exact counted_post hsending
      · -- Nothing was written.
        have hzero : written.toNat = 0 := by omega
        have hself : w1.setKernel w1.kernel = w1 := rfl
        rw [hzero, List.take_zero, Kernel.send_nil, hself]
        cases ans.sslWriteError with
        | wantWrite => exact ensures_pure.mpr (Post.ok h1)
        | other => exact ensures_pure.mpr (Post.error h1)
        | wantRead =>
          simp only [ensures_bind]
          refine editPollFd_spec.mono (fun edited w3 hedit => ?_)
          have hafter : Sending c (q.write bytes) w3 := by
            rcases hedit with ⟨_, p, k, _, hmod, rfl⟩ | ⟨_, rfl⟩
            · have hk := Kernel.SameStreams.ctlMod hmod
              refine ⟨h1.slots.setKernel k, (hk.openId? _).trans h1.client,
                fun hpos => (hk.openId? _).trans (h1.file hpos), h1.state, h1.buffer, h1.unread,
                ?_, ?_, h1.toSend, h1.more⟩
              · rw [World.setKernel_kernel, hk.taken]
                exact h1.taken
              · rw [World.setKernel_kernel, hk.sent]
                exact h1.sent
            · exact h1
          rw [ensures_ite]
          refine ⟨fun _ => ensures_pure.mpr (Post.error hafter), fun _ => ?_⟩
          rw [ensures_bind]
          exact (counted_post hafter).mono (fun _ _ hpost => ensures_pure.mpr hpost)

theorem process_post {fd : Int} {events : Nat} (h : Sending c q w) (hbounded : Bounded c w ans) :
    Ensures (SslFileExecutor.process ans c.l c.r fd events) w (Post c) := by
  unfold SslFileExecutor.process FileExecutor.process
  simp only [ensures_bind, ensures_getData, ensures_ite, ensures_pure]
  refine ⟨fun _ => sendFile_post h hbounded, fun hnot => ⟨fun hs => ?_, fun _ =>
    ⟨fun hs => ?_, fun _ => Post.error h⟩⟩⟩
  · rcases hs.1 with hn | hn <;> rw [h.state] at hn <;> cases hn
  · exact absurd ⟨hs.1, hs.2.1, Or.inr hs.2.2⟩ hnot

/-! ## Runs -/

theorem Progress.elsewhere {res : ProcessResult} (h : Progress c res w)
    (hu : Untouched c.l c.r [c.id0, c.idFile] w w') : Progress c res w' := by
  have hsent := hu.sent c.id0 (by simp)
  have htaken := hu.taken c.idFile (by simp)
  refine ⟨?_, ?_, ?_⟩
  · rw [hu.data]
    exact h.toSend
  · rw [hsent, htaken]
    exact h.order
  · rw [hsent]
    exact h.finished

theorem Sending.elsewhere (h : Sending c q w) (hu : Untouched c.l c.r [c.id0, c.idFile] w w') :
    Sending c q w' := by
  have hopen : ∀ fd, (w.data c.l c.r).Holds fd → w'.kernel.openId? fd = w.kernel.openId? fd := by
    intro fd hfd
    unfold Kernel.openId?
    rw [hu.table fd hfd]
  refine ⟨hu.slots, ?_, ?_, ?_, ?_, ?_, (hu.taken c.idFile (by simp)).trans h.taken,
    (hu.sent c.id0 (by simp)).trans h.sent, ?_, h.more⟩
  all_goals rw [hu.data]
  · exact (hopen _ (Or.inl rfl)).trans h.client
  · exact fun hpos => (hopen _ (Or.inr (Or.inl rfl))).trans (h.file hpos)
  · exact h.state
  · exact h.buffer
  · exact h.unread
  · exact h.toSend

end

theorem reach_progress {c : Response} {w : World} {s : ProxyRun}
    {meets : World → Answers → Int → Nat → Prop} (h : Handed c w) (hlength : 1 ≤ c.contentLength)
    (hmeets : ∀ w' ans fd events, meets w' ans fd events → Bounded c w' ans)
    (hrun : ProxyRun.Reach (SslFileExecutor.process · c.l c.r) c.l c.r [c.id0, c.idFile]
      meets w s) :
    Progress c s.last s.world := by
  have hinv : Sending c Fifo.empty w := by
    refine ⟨h.slots, h.client, fun _ => h.file, h.state, h.buffer, h.unread, h.taken, ?_, ?_,
      hlength⟩
    · exact h.sent.trans (List.append_nil _).symm
    · rw [h.toSend]
      exact (Int.sub_zero _).symm
  refine (hrun.ensures (fun w' => ∃ q, Sending c q w') (Progress c) ?_ ?_ ?_ ⟨_, hinv⟩
    (hinv.progress (by decide))).1
  · intro w' ans fd events hi hm
    obtain ⟨q, hq⟩ := hi
    exact (process_post hq (hmeets w' ans fd events hm)).mono
      (fun res w'' hpost => ⟨hpost.progress, hpost.inv⟩)
  · exact fun w' w'' res hq hu => hq.elsewhere hu
  · intro w' w'' hi hu
    obtain ⟨q, hq⟩ := hi
    exact ⟨q, hq.elsewhere hu⟩

/-- The body is what the headers promised, in every run in which no call sends more than is left
of it. -/
theorem run_bounded {c : Response} {w : World} {s : ProxyRun} (h : Handed c w)
    (hlength : 1 ≤ c.contentLength)
    (hrun : ProxyRun.Reach (SslFileExecutor.process · c.l c.r) c.l c.r [c.id0, c.idFile]
      (fun w' ans _ _ => Bounded c w' ans) w s) : Progress c s.last s.world :=
  reach_progress h hlength (fun _ _ _ _ hbounded => hbounded) hrun

/-- A loop with one connection behind its headers: the client is 5 and the file is 6. -/
def servingWorld (contentLength : Nat) : World where
  parameters := { rootFolder := [] }
  loops := fun _ =>
    { execDatas := BlockStorage.empty.assign 0
        { fd0 := 5
          fd1 := 6
          state := .sendFile
          bytesToSend := contentLength
          buffer := { buf := List.replicate ExecutorData.REQUEST_BUFFER_SIZE 0 } } }
  kernel := (Kernel.fresh.opened 5 true).opened 6 false

def sample (contentLength : Nat) : Response where
  l := 0
  r := 0
  id0 := 0
  idFile := 1
  contentLength := contentLength
  base := []
  ids := Nat.zero_ne_one

theorem servingWorld_handed (n : Nat) : Handed (sample n) (servingWorld n) := by
  have hbuffer : ({ buf := List.replicate ExecutorData.REQUEST_BUFFER_SIZE 0 } :
      TransferRingBuffer).WellFormed := ⟨by decide +kernel, by decide +kernel⟩
  have hslots : Slots (servingWorld n) 0 0 := ⟨BlockStorage.sound_empty,
    fun p hp => (by cases hp), fun p hp => (by cases hp), fun p hp => (by cases hp)⟩
  exact ⟨hslots, rfl, rfl, rfl, hbuffer, unread_of_le (Nat.le_refl 0), rfl, rfl, rfl⟩

/-- The file gives the three bytes that were promised, and one of them goes. -/
def steadyCalls : List ProxyRun.Call :=
  [ { answers := { read := { bytes := some [1, 2, 3] }, sslWrite := 1 }
      fd := 5
      events := EPOLLOUT } ]

theorem run_bounded_steady :
    ∃ s, ProxyRun.calls (SslFileExecutor.process · 0 0) (fun w ans _ _ => Bounded (sample 3) w ans)
        steadyCalls ⟨servingWorld 3, .ok⟩ = some s ∧ Progress (sample 3) s.last s.world := by
  have hrun : ((ProxyRun.calls (SslFileExecutor.process · 0 0)
      (fun w ans _ _ => Bounded (sample 3) w ans) steadyCalls ⟨servingWorld 3, .ok⟩).map
        (·.last)) = some .ok := by
    decide +kernel
  obtain ⟨s, hcalls, _⟩ := Option.map_eq_some_iff.mp hrun
  have hreach : ProxyRun.Reach (SslFileExecutor.process · 0 0) 0 0 [0, 1]
      (fun w ans _ _ => Bounded (sample 3) w ans) (servingWorld 3) s :=
    ProxyRun.reach_of_calls 0 0 [0, 1] hcalls
  exact ⟨s, hcalls, run_bounded (servingWorld_handed 3) (by decide) hreach⟩

/-- So it is with a file that does not grow past the length that was promised, whatever `SSL_write`
takes. -/
theorem run_notGrown {c : Response} {w : World} {s : ProxyRun} (h : Handed c w)
    (hlength : 1 ≤ c.contentLength)
    (hrun : ProxyRun.Reach (SslFileExecutor.process · c.l c.r) c.l c.r [c.id0, c.idFile]
      (fun w' ans _ _ =>
        (w'.kernel.taken c.idFile).length + arriving (w'.data c.l c.r) ans ≤ c.contentLength)
      w s) : Progress c s.last s.world :=
  reach_progress h hlength (fun _ _ _ _ hfits => Or.inl hfits) hrun

/-- The file grew by a byte since its length was promised, and `SSL_write` takes all of it. -/
def grownCalls : List ProxyRun.Call :=
  [ { answers := { read := { bytes := some [1, 2, 3, 4] }, sslWrite := 4 }
      fd := 5
      events := EPOLLOUT } ]

/-- Four bytes are sent where three were promised, and the call goes on. -/
theorem grownCalls_overrun :
    Handed (sample 3) (servingWorld 3) ∧ ∃ s,
      ProxyRun.calls (SslFileExecutor.process · 0 0) (fun _ _ _ _ => True) grownCalls
        ⟨servingWorld 3, .ok⟩ = some s ∧
      s.last = .ok ∧ s.world.kernel.sent 0 = [1, 2, 3, 4] ∧ (s.world.data 0 0).bytesToSend = -1 ∧
      ¬ Progress (sample 3) s.last s.world := by
  refine ⟨servingWorld_handed 3, ?_⟩
  have hrun : ((ProxyRun.calls (SslFileExecutor.process · 0 0) (fun _ _ _ _ => True) grownCalls
      ⟨servingWorld 3, .ok⟩).map (fun s =>
        (s.last, s.world.kernel.sent 0, (s.world.data 0 0).bytesToSend))) =
      some (.ok, [1, 2, 3, 4], -1) := by
    decide +kernel
  obtain ⟨s, hcalls, hshape⟩ := Option.map_eq_some_iff.mp hrun
  simp only [Prod.mk.injEq] at hshape
  obtain ⟨hlast, hsent, htoSend⟩ := hshape
  refine ⟨s, hcalls, hlast, hsent, htoSend, fun hprogress => ?_⟩
  have hnonneg : 0 ≤ (s.world.data 0 0).bytesToSend := hprogress.toSend
  omega

end SslFileServing
end EpollHttp
