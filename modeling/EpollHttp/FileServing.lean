import EpollHttp.Executors.ProxyRun
import EpollHttp.Executors.FileExecutor

/-
`FileExecutor` sends the headers and then a file that does not change.
-/

namespace EpollHttp
namespace FileServing

open Program TransferRingBuffer FileExecutor

/-- A response: where its data is, the identities of the client and the file, the headers, the
bytes of the file, and what was sent to the client before. -/
structure Response where
  l : Nat
  r : Nat
  id0 : Nat
  idFile : Nat
  header : Bytes
  file : Bytes
  base : Bytes
  ids : id0 ≠ idFile

/-- The response as a whole. -/
def Response.all (c : Response) : Bytes := c.header ++ c.file

/-- What is left of the file at `position`. -/
def Response.rest (c : Response) (position : Int) : Bytes := c.file.drop position.toNat

/-- A connection in front of its response. -/
structure Handed (c : Response) (w : World) : Prop where
  slots : Slots w c.l c.r
  client : w.kernel.openId? (w.data c.l c.r).fd0 = some c.id0
  file : w.kernel.openId? (w.data c.l c.r).fd1 = some c.idFile
  state : (w.data c.l c.r).state = .sendHeaders
  buffer : (w.data c.l c.r).buffer.WellFormed
  front : (w.data c.l c.r).buffer.readHead ≤ (w.data c.l c.r).buffer.writeHead
  header : (w.data c.l c.r).buffer.unread = c.header
  some : c.header ≠ []
  position : (w.data c.l c.r).filePosition = 0
  toSend : (w.data c.l c.r).bytesToSend = c.file.length
  sent : w.kernel.sent c.id0 = c.base

/-- `sendfile` answers with bytes of the file, and with none only at its end. -/
def Unchanged (c : Response) (w : World) (ans : Answers) : Prop :=
  ∀ came, ans.sendfile.bytes = some came →
    came <+: c.rest (w.data c.l c.r).filePosition ∧
      (came = [] → c.rest (w.data c.l c.r).filePosition = [])

/-- The error codes for which `process_sendHeaders` tries again. -/
def Retried (errno : Nat) : Prop := errno = EWOULDBLOCK ∨ errno = EAGAIN ∨ errno = EINTR

instance (errno : Nat) : Decidable (Retried errno) := inferInstanceAs (Decidable (_ ∨ _ ∨ _))

/-- The client may be written to, the file does not change, and a write of nothing leaves an error
code behind for which the executor tries again. -/
structure Served (c : Response) (w : World) (ans : Answers) (fd : Int) (events : Nat) : Prop where
  fd : fd = (w.data c.l c.r).fd0
  events : hasEvent events EPOLLOUT = true
  unchanged : Unchanged c w ans
  written : ans.write.count = 0 → Retried ans.write.errno

instance (c : Response) (w : World) (ans : Answers) : Decidable (Unchanged c w ans) :=
  match h : ans.sendfile.bytes with
  | none => isTrue (fun came hcame => by rw [h] at hcame; cases hcame)
  | some bytes =>
    decidable_of_iff (bytes <+: c.rest (w.data c.l c.r).filePosition ∧
        (bytes = [] → c.rest (w.data c.l c.r).filePosition = []))
      ⟨fun hb came hcame => by
        rw [h] at hcame
        cases hcame
        exact hb, fun hu => hu bytes h⟩

instance (c : Response) (w : World) (ans : Answers) (fd : Int) (events : Nat) :
    Decidable (Served c w ans fd events) :=
  decidable_of_iff (fd = (w.data c.l c.r).fd0 ∧ hasEvent events EPOLLOUT = true ∧
      Unchanged c w ans ∧ (ans.write.count = 0 → Retried ans.write.errno))
    ⟨fun h => ⟨h.1, h.2.1, h.2.2.1, h.2.2.2⟩, fun h => ⟨h.fd, h.events, h.unchanged, h.written⟩⟩

/-- The system call of the state failed. -/
def Failed (state : ExecutorData.State) (ans : Answers) : Prop :=
  if state = .sendHeaders then
    ans.write.count < 0 ∧ ans.write.errno ≠ EAGAIN ∧ ans.write.errno ≠ EWOULDBLOCK
  else
    ans.sendfile.bytes = none ∧ ans.sendfile.errno ≠ EAGAIN ∧ ans.sendfile.errno ≠ EWOULDBLOCK

/-- Where the response stands when a call returned `res`. -/
structure Progress (c : Response) (res : ProcessResult) (w : World) : Prop where
  position : (w.data c.l c.r).filePosition + (w.data c.l c.r).bytesToSend = c.file.length
  sent : ∃ delivered, w.kernel.sent c.id0 = c.base ++ delivered ∧ delivered <+: c.all
  finished : res = .removeExecutorOk → w.kernel.sent c.id0 = c.base ++ c.all
  going : res = .ok → w.kernel.sent c.id0 ≠ c.base ++ c.all

/-! ## The invariant -/

/-- What the two phases share. -/
structure Base (c : Response) (w : World) : Prop where
  slots : Slots w c.l c.r
  client : w.kernel.openId? (w.data c.l c.r).fd0 = some c.id0
  file : w.kernel.openId? (w.data c.l c.r).fd1 = some c.idFile
  buffer : (w.data c.l c.r).buffer.WellFormed

inductive Inv (c : Response) (w : World) : Prop
  | headers (base : Base c w) (state : (w.data c.l c.r).state = .sendHeaders)
      (front : (w.data c.l c.r).buffer.readHead ≤ (w.data c.l c.r).buffer.writeHead)
      (delivered : Bytes) (sent : w.kernel.sent c.id0 = c.base ++ delivered)
      (header : c.header = delivered ++ (w.data c.l c.r).buffer.unread)
      (unread : (w.data c.l c.r).buffer.unread ≠ [])
      (position : (w.data c.l c.r).filePosition = 0)
      (toSend : (w.data c.l c.r).bytesToSend = c.file.length)
  | body (base : Base c w) (state : (w.data c.l c.r).state = .sendFile) (k : Nat)
      (sent : w.kernel.sent c.id0 = c.base ++ (c.header ++ c.file.take k))
      (position : (w.data c.l c.r).filePosition = k)
      (toSend : (w.data c.l c.r).bytesToSend = c.file.length - k)
      (more : k < c.file.length)

section
variable {c : Response} {w w' : World} {ans : Answers}

theorem body_ne {k : Nat} (h : k < c.file.length) :
    c.base ++ (c.header ++ c.file.take k) ≠ c.base ++ c.all := by
  intro heq
  have hlen := congrArg List.length heq
  simp only [Response.all, List.length_append, List.length_take] at hlen
  omega

theorem Inv.progress {res : ProcessResult} (h : Inv c w) (hres : res ≠ .removeExecutorOk) :
    Progress c res w := by
  cases h with
  | headers _ _ _ delivered sent header unread position toSend =>
    refine ⟨by omega, ⟨delivered, sent, ?_⟩, fun heq => absurd heq hres, fun _ hall => ?_⟩
    · rw [Response.all, header, List.append_assoc]
      exact List.prefix_append _ _
    · rw [sent] at hall
      have hlen := congrArg List.length (List.append_cancel_left hall)
      have hpos := List.length_pos_iff.mpr unread
      rw [Response.all, header] at hlen
      simp only [List.length_append] at hlen
      omega
  | body _ _ k sent position toSend more =>
    refine ⟨by omega, ⟨_, sent, ?_⟩, fun heq => absurd heq hres, fun _ hall => ?_⟩
    · exact (List.prefix_append_right_inj _).mpr (List.take_prefix _ _)
    · rw [sent] at hall
      exact body_ne more hall

/-- Only fields that do not matter for the response are assigned. -/
theorem Base.setData (h : Base c w) {d : ExecutorData} (hbuffer : d.buffer.WellFormed)
    (hfd0 : d.fd0 = (w.data c.l c.r).fd0) (hfd1 : d.fd1 = (w.data c.l c.r).fd1)
    (h0 : d.pollData0 = (w.data c.l c.r).pollData0)
    (h1 : d.pollData1 = (w.data c.l c.r).pollData1) : Base c (w.setData c.l c.r d) := by
  refine ⟨h.slots.setData h0 h1, ?_, ?_, ?_⟩
  all_goals rw [World.setData_self]
  · rw [hfd0]
    exact h.client
  · rw [hfd1]
    exact h.file
  · exact hbuffer

theorem Base.setKernel {k : Kernel} (h : Base c w) (htable : k.table = w.kernel.table) :
    Base c (w.setKernel k) := by
  have hopen : ∀ fd, k.openId? fd = w.kernel.openId? fd := by
    intro fd
    unfold Kernel.openId?
    rw [htable]
  exact ⟨h.slots.setKernel k, (hopen _).trans h.client, (hopen _).trans h.file, h.buffer⟩

/-- What a call ends with: an error tells that a system call failed. -/
structure Post (c : Response) (w : World) (ans : Answers) (res : ProcessResult) (w' : World) :
    Prop where
  progress : Progress c res w'
  inv : res = .ok → Inv c w'
  failed : res = .removeExecutorError → Failed (w.data c.l c.r).state ans

theorem Post.ok {w0 : World} (h : Inv c w) : Post c w0 ans .ok w :=
  ⟨h.progress (by decide), fun _ => h, fun herr => by cases herr⟩

theorem Post.error {w0 : World} (h : Inv c w) (hfailed : Failed (w0.data c.l c.r).state ans) :
    Post c w0 ans .removeExecutorError w :=
  ⟨h.progress (by decide), fun hok => (by cases hok), fun _ => hfailed⟩

/-- `process_sendHeaders`, for a file that is not empty. -/
theorem headers_post {delivered : Bytes} (base : Base c w)
    (state : (w.data c.l c.r).state = .sendHeaders)
    (front : (w.data c.l c.r).buffer.readHead ≤ (w.data c.l c.r).buffer.writeHead)
    (sent : w.kernel.sent c.id0 = c.base ++ delivered)
    (header : c.header = delivered ++ (w.data c.l c.r).buffer.unread)
    (unread : (w.data c.l c.r).buffer.unread ≠ [])
    (position : (w.data c.l c.r).filePosition = 0)
    (toSend : (w.data c.l c.r).bytesToSend = c.file.length) (hfile : c.file ≠ [])
    (hwritten : ans.write.count = 0 → Retried ans.write.errno) :
    Ensures (processSendHeaders .file ans c.l c.r) w (Post c w ans) := by
  have hinv : Inv c w := Inv.headers base state front delivered sent header unread position toSend
  simp only [processSendHeaders, ensures_bind, ensures_getData]
  cases hstart : (w.data c.l c.r).buffer.startRead with
  | none => exact absurd ((startRead_none_iff base.buffer).mp hstart) unread
  | some window =>
    have hwindow := startRead_some base.buffer hstart
    have hall := startRead_size base.buffer front hstart
    have hslice := hwindow.slice_eq base.buffer (Nat.le_refl _)
    have htake : (w.data c.l c.r).buffer.unread.take window.size =
        (w.data c.l c.r).buffer.unread := by
      rw [hall, List.take_length]
    rw [htake] at hslice
    have hpos := hwindow.pos
    simp only [ensures_bind, Executor.writeFd0, Executor.plainWriteFd0, write, ensures_getData,
      ensures_getKernel, base.client, sendSome, ensures_modifyKernel, ensures_pure]
    rw [hslice, ← hall]
    generalize hresult : min ans.write.count (window.size : Int) = result
    have hle : result.toNat ≤ window.size := by omega
    rw [ensures_ite, ensures_ite]
    refine ⟨fun hneg => ?_, fun hmore => ?_⟩
    · -- Nothing was written.
      have hzero : result.toNat = 0 := by omega
      have hself : w.setKernel w.kernel = w := rfl
      rw [hzero, List.take_zero, Kernel.send_nil, if_neg (Int.not_lt.mpr hneg), hself]
      refine ⟨fun herror => ensures_pure.mpr (Post.error hinv ?_), fun _ => ?_⟩
      · have hne : ans.write.count ≠ 0 := by
          intro h0
          rcases hwritten h0 with he | he | he
          · exact herror.1 he
          · exact herror.2.1 he
          · exact herror.2.2 he
        unfold Failed
        rw [if_pos state]
        exact ⟨by omega, herror.2.1, herror.1⟩
      · simp only [ensures_bind, ensures_countRetry, ensures_pure]
        refine Post.ok (Inv.headers (base.setData base.buffer rfl rfl rfl rfl) ?_ ?_ delivered sent
          ?_ ?_ ?_ ?_)
        all_goals rw [World.setData_self]
        · exact state
        · exact front
        · exact header
        · exact unread
        · exact position
        · exact toSend
    · have hrest := endRead_unread base.buffer hwindow hle
      have hwf := endRead_wellFormed base.buffer hwindow hle
      have hsent : (w.kernel.send c.id0 ((w.data c.l c.r).buffer.unread.take
          result.toNat)).sent c.id0 =
          c.base ++ (delivered ++ (w.data c.l c.r).buffer.unread.take result.toNat) := by
        show Function.update w.kernel.sent c.id0 _ c.id0 = _
        rw [Function.update_self, sent, List.append_assoc]
      have hbase := base.setKernel (k := w.kernel.send c.id0
        ((w.data c.l c.r).buffer.unread.take result.toNat)) rfl
      simp only [ensures_bind, ensures_clearRetries, ensures_modifyData, ensures_getData,
        ensures_ite, ensures_setState, ensures_pure, World.setData_self, World.setData_setData,
        World.setKernel_data]
      refine ⟨fun hfull => ⟨fun honly => ?_, fun _ => ?_⟩, fun hpart => ?_⟩
      · rw [state] at honly
        cases honly
      · -- The headers are sent, and the file follows.
        have hdone : (w.data c.l c.r).buffer.unread.take result.toNat =
            (w.data c.l c.r).buffer.unread := by
          rw [List.take_of_length_le (by omega)]
        rw [hdone, ← header] at hsent
        refine Post.ok (Inv.body (hbase.setData ?_ rfl rfl rfl rfl) ?_ 0 ?_ ?_ ?_ ?_)
        · exact ⟨Nat.lt_of_le_of_lt (Nat.zero_le _) hwf.readHead, Nat.zero_le _⟩
        · rw [World.setData_self]
        · rw [World.setData_kernel, World.setKernel_kernel, hdone, hsent, List.take_zero,
            List.append_nil]
        · rw [World.setData_self]
          exact position
        · rw [World.setData_self]
          show (w.data c.l c.r).bytesToSend = c.file.length - ((0 : Nat) : Int)
          omega
        · exact List.length_pos_iff.mpr hfile
      · refine Post.ok (Inv.headers (hbase.setData hwf rfl rfl rfl rfl) ?_ ?_ _ hsent ?_ ?_ ?_ ?_)
        all_goals rw [World.setData_self]
        · exact state
        · have hstart' := hwindow.start
          have hunread' := hwindow.unread front
          show ((w.data c.l c.r).buffer.endRead result.toNat).readHead ≤
            ((w.data c.l c.r).buffer.endRead result.toNat).writeHead
          unfold TransferRingBuffer.endRead
          split
          · exact Nat.zero_le _
          · show (w.data c.l c.r).buffer.readHead + result.toNat ≤
              (w.data c.l c.r).buffer.writeHead
            omega
        · show c.header = delivered ++ _ ++ ((w.data c.l c.r).buffer.endRead result.toNat).unread
          rw [hrest, List.append_assoc, List.take_append_drop]
          exact header
        · show ((w.data c.l c.r).buffer.endRead result.toNat).unread ≠ []
          rw [hrest, Ne, List.drop_eq_nil_iff]
          omega
        · exact position
        · exact toSend

/-- `process_sendFile`, for a file that does not change. -/
theorem body_post {k : Nat} (base : Base c w) (state : (w.data c.l c.r).state = .sendFile)
    (sent : w.kernel.sent c.id0 = c.base ++ (c.header ++ c.file.take k))
    (position : (w.data c.l c.r).filePosition = k)
    (toSend : (w.data c.l c.r).bytesToSend = c.file.length - k) (more : k < c.file.length)
    (hunchanged : Unchanged c w ans) :
    Ensures (processSendFile ans c.l c.r) w (Post c w ans) := by
  have hinv : Inv c w := Inv.body base state k sent position toSend more
  simp only [processSendFile, ensures_bind, ensures_getData]
  refine (sendfile_spec base.client base.file).mono (fun moved w1 hmoved => ?_)
  obtain ⟨herrno, hcases⟩ := hmoved
  rw [ensures_ite, ensures_ite]
  rcases hcases with ⟨hnone, hresult, rfl⟩ | ⟨came, hcame, hresult, rfl⟩
  · refine ⟨fun _ => ⟨fun _ => ?_, fun herror => ensures_pure.mpr (Post.error hinv ?_)⟩,
      fun hpos => by omega⟩
    · simp only [ensures_bind, ensures_countRetry, ensures_pure]
      refine Post.ok (Inv.body (base.setData base.buffer rfl rfl rfl rfl) ?_ k sent ?_ ?_ more)
      all_goals rw [World.setData_self]
      · exact state
      · exact position
      · exact toSend
    · rw [herrno] at herror
      have hne : (w1.data c.l c.r).state ≠ .sendHeaders := by
        rw [state]
        decide
      unfold Failed
      rw [if_neg hne]
      exact ⟨hnone, fun he => herror (Or.inl he), fun he => herror (Or.inr he)⟩
  · -- The next bytes of the file went to the client.
    obtain ⟨hfront, hempty⟩ := hunchanged came hcame
    unfold Response.rest at hfront hempty
    rw [position, Int.toNat_natCast] at hfront hempty
    have hcount : (w.data c.l c.r).bytesToSend.toNat = c.file.length - k := by omega
    have hlen := hfront.length_le
    rw [List.length_drop] at hlen
    have htake : came.take (w.data c.l c.r).bytesToSend.toNat = came := by
      rw [List.take_of_length_le (by omega)]
    rw [htake] at hresult ⊢
    have hsome : 0 < came.length := by
      refine List.length_pos_iff.mpr (fun hnil => ?_)
      have hend := hempty hnil
      rw [List.drop_eq_nil_iff] at hend
      omega
    have hnext : c.file.take k ++ came = c.file.take (k + came.length) := by
      obtain ⟨tail, htail⟩ := hfront
      rw [List.take_add, ← htail, List.take_left]
    have hsent : ((w.kernel.take c.idFile came).send c.id0 came).sent c.id0 =
        c.base ++ (c.header ++ c.file.take (k + came.length)) := by
      show Function.update w.kernel.sent c.id0 (w.kernel.sent c.id0 ++ came) c.id0 = _
      rw [Function.update_self, sent, ← hnext]
      simp only [List.append_assoc]
    have hbase := base.setKernel (k := (w.kernel.take c.idFile came).send c.id0 came) rfl
    refine ⟨fun hneg => by omega, fun _ => ?_⟩
    simp only [ensures_bind, ensures_clearRetries, ensures_modifyData, ensures_getData,
      ensures_ite, ensures_pure, World.setData_self, World.setData_setData, World.setKernel_data]
    refine ⟨fun hzero => ?_, fun hmore => ?_⟩
    · have hall : k + came.length = c.file.length := by omega
      rw [hall, List.take_length] at hsent
      refine ⟨⟨?_, ⟨c.all, hsent, List.prefix_rfl⟩, fun _ => hsent, fun hok => (by cases hok)⟩,
        fun hok => (by cases hok), fun herr => (by cases herr)⟩
      rw [World.setData_self]
      show (w.data c.l c.r).filePosition + moved.result +
        ((w.data c.l c.r).bytesToSend - moved.result) = c.file.length
      omega
    · refine Post.ok (Inv.body (hbase.setData base.buffer rfl rfl rfl rfl) ?_ (k + came.length)
        hsent ?_ ?_ (by omega))
      all_goals rw [World.setData_self]
      · exact state
      · show (w.data c.l c.r).filePosition + moved.result = ((k + came.length : Nat) : Int)
        omega
      · show (w.data c.l c.r).bytesToSend - moved.result =
          c.file.length - ((k + came.length : Nat) : Int)
        omega

/-- One call of `process`, for a file that is not empty. -/
theorem process_post {fd : Int} {events : Nat} (h : Inv c w) (hfile : c.file ≠ [])
    (hserved : Served c w ans fd events) :
    Ensures (FileExecutor.process .file ans c.l c.r fd events) w (Post c w ans) := by
  unfold FileExecutor.process
  simp only [ensures_bind, ensures_getData, ensures_ite, ensures_pure]
  cases h with
  | headers base state front delivered sent header unread position toSend =>
    refine ⟨fun _ => headers_post base state front sent header unread position toSend hfile
      hserved.written, fun hnot => ?_⟩
    exact absurd ⟨Or.inl state, hserved.fd, hserved.events⟩ hnot
  | body base state k sent position toSend more =>
    refine ⟨fun hs => ?_, fun _ => ⟨fun _ => body_post base state sent position toSend more
      hserved.unchanged, fun hnot => absurd ⟨state, hserved.fd, hserved.events⟩ hnot⟩⟩
    rcases hs.1 with hn | hn <;> rw [state] at hn <;> cases hn

theorem Progress.elsewhere {res : ProcessResult} (h : Progress c res w)
    (hu : Untouched c.l c.r [c.id0] w w') : Progress c res w' := by
  have hsent := hu.sent c.id0 (by simp)
  refine ⟨?_, ?_, ?_, ?_⟩
  · rw [hu.data]
    exact h.position
  all_goals rw [hsent]
  · exact h.sent
  · exact h.finished
  · exact h.going

theorem Inv.elsewhere (h : Inv c w) (hu : Untouched c.l c.r [c.id0] w w') : Inv c w' := by
  have hopen : ∀ fd, (w.data c.l c.r).Holds fd → w'.kernel.openId? fd = w.kernel.openId? fd := by
    intro fd hfd
    unfold Kernel.openId?
    rw [hu.table fd hfd]
  have hsent := hu.sent c.id0 (by simp)
  have hbase : ∀ hb : Base c w, Base c w' := by
    intro hb
    refine ⟨hu.slots, ?_, ?_, ?_⟩
    all_goals rw [hu.data]
    · exact (hopen _ (Or.inl rfl)).trans hb.client
    · exact (hopen _ (Or.inr (Or.inl rfl))).trans hb.file
    · exact hb.buffer
  cases h with
  | headers base state front delivered sent header unread position toSend =>
    refine Inv.headers (hbase base) ?_ ?_ delivered (hsent.trans sent) ?_ ?_ ?_ ?_
    all_goals rw [hu.data]
    · exact state
    · exact front
    · exact header
    · exact unread
    · exact position
    · exact toSend
  | body base state k sent position toSend more =>
    refine Inv.body (hbase base) ?_ k (hsent.trans sent) ?_ ?_ more
    all_goals rw [hu.data]
    · exact state
    · exact position
    · exact toSend

end

/-! ## Runs -/

/-- A response whose file is not empty goes out whole, and no call fails on its own. -/
theorem run_complete {c : Response} {w : World} {s : ProxyRun} (h : Handed c w)
    (hfile : c.file ≠ [])
    (hrun : ProxyRun.Reach (FileExecutor.process .file · c.l c.r) c.l c.r [c.id0]
      (Served c) w s) :
    Progress c s.last s.world ∧
      ∀ ans fd events w', s.last = .ok → Served c s.world ans fd events →
        FileExecutor.process .file ans c.l c.r fd events s.world =
          some (.removeExecutorError, w') →
        Failed (s.world.data c.l c.r).state ans := by
  have hinv : Inv c w := by
    refine Inv.headers ⟨h.slots, h.client, h.file, h.buffer⟩ h.state h.front [] ?_ ?_ ?_ h.position
      h.toSend
    · rw [h.sent, List.append_nil]
    · exact h.header.symm
    · rw [h.header]
      exact h.some
  have hall : Progress c s.last s.world ∧ (s.last = .ok → Inv c s.world) := by
    refine hrun.ensures (Inv c) (Progress c) ?_ ?_ ?_ hinv (hinv.progress (by decide))
    · exact fun w' ans fd events hi hserved => (process_post hi hfile hserved).mono
        (fun res w'' hpost => ⟨hpost.progress, hpost.inv⟩)
    · exact fun w' w'' res hq hu => hq.elsewhere hu
    · exact fun w' w'' hi hu => hi.elsewhere hu
  refine ⟨hall.1, fun ans fd events w' hok hserved hprocess => ?_⟩
  exact (process_post (hall.2 hok) hfile hserved _ _ hprocess).failed rfl

/-! ## Two responses -/

def headerBuffer : TransferRingBuffer where
  buf := [72, 84] ++ List.replicate (ExecutorData.REQUEST_BUFFER_SIZE - 2) 0
  readHead := 0
  writeHead := 2

/-- A loop with one connection in front of its response to the descriptor 5 from the file 6. -/
def servingWorld (file : Bytes) : World where
  parameters := { rootFolder := [] }
  loops := fun _ =>
    { execDatas := BlockStorage.empty.assign 0
        { fd0 := 5
          fd1 := 6
          state := .sendHeaders
          bytesToSend := file.length
          buffer := headerBuffer } }
  kernel := (Kernel.fresh.opened 5 true).opened 6 false

def sample (file : Bytes) : Response where
  l := 0
  r := 0
  id0 := 0
  idFile := 1
  header := [72, 84]
  file := file
  base := []
  ids := Nat.zero_ne_one

theorem servingWorld_handed (file : Bytes) : Handed (sample file) (servingWorld file) := by
  have hbuffer : headerBuffer.WellFormed := ⟨by decide +kernel, by decide +kernel⟩
  have hheader : headerBuffer.unread = [72, 84] := by decide +kernel
  have hslots : Slots (servingWorld file) 0 0 := ⟨BlockStorage.sound_empty,
    fun p hp => (by cases hp), fun p hp => (by cases hp), fun p hp => (by cases hp)⟩
  exact ⟨hslots, rfl, rfl, rfl, hbuffer, Nat.zero_le _, hheader, List.cons_ne_nil _ _, rfl, rfl, rfl⟩

/-- The headers go out in two parts, and one of two bytes of the file. -/
def sampleCalls : List ProxyRun.Call :=
  [ { answers := { write := { count := 1 } }, fd := 5, events := EPOLLOUT },
    { answers := { write := { count := 1 } }, fd := 5, events := EPOLLOUT },
    { answers := { sendfile := { bytes := some [1] } }, fd := 5, events := EPOLLOUT } ]

theorem run_complete_sample :
    ∃ s, ProxyRun.calls (FileExecutor.process .file · 0 0) (Served (sample [1, 2])) sampleCalls
        ⟨servingWorld [1, 2], .ok⟩ = some s ∧ Progress (sample [1, 2]) s.last s.world := by
  have hrun : ((ProxyRun.calls (FileExecutor.process .file · 0 0) (Served (sample [1, 2]))
      sampleCalls ⟨servingWorld [1, 2], .ok⟩).map (·.last)) = some .ok := by
    decide +kernel
  obtain ⟨s, hcalls, _⟩ := Option.map_eq_some_iff.mp hrun
  have hreach : ProxyRun.Reach (FileExecutor.process .file · 0 0) 0 0 [0]
      (Served (sample [1, 2])) (servingWorld [1, 2]) s := ProxyRun.reach_of_calls 0 0 [0] hcalls
  exact ⟨s, hcalls, (run_complete (servingWorld_handed [1, 2]) (by decide) hreach).1⟩

/-- The headers go out, and then there is nothing to send. -/
def emptyCalls : List ProxyRun.Call :=
  [{ answers := { write := { count := 2 } }, fd := 5, events := EPOLLOUT }]

/-- The call that sends the last byte of a response with an empty file returns `ok`, and the next
one fails while `sendfile` does not. -/
theorem emptyCalls_error :
    Handed (sample []) (servingWorld []) ∧ ∃ s,
      ProxyRun.calls (FileExecutor.process .file · 0 0) (Served (sample [])) emptyCalls
        ⟨servingWorld [], .ok⟩ = some s ∧
      s.last = .ok ∧ s.world.kernel.sent 0 = (sample []).all ∧
      ¬ Progress (sample []) s.last s.world ∧
      ∃ ans w', Served (sample []) s.world ans 5 EPOLLOUT ∧ ans.sendfile.bytes = some [] ∧
        FileExecutor.process .file ans 0 0 5 EPOLLOUT s.world =
          some (.removeExecutorError, w') ∧
        ¬ Failed (s.world.data 0 0).state ans := by
  refine ⟨servingWorld_handed [], ?_⟩
  have hrun : ((ProxyRun.calls (FileExecutor.process .file · 0 0) (Served (sample []))
      emptyCalls ⟨servingWorld [], .ok⟩).map (fun s =>
        (s.last, s.world.kernel.sent 0, (s.world.data 0 0).state, (s.world.data 0 0).fd0,
          (FileExecutor.process .file { sendfile := { bytes := some [], errno := ENOENT } } 0 0 5
            EPOLLOUT s.world).map (·.1)))) =
      some (.ok, [72, 84], .sendFile, 5, some .removeExecutorError) := by
    decide +kernel
  obtain ⟨s, hcalls, hshape⟩ := Option.map_eq_some_iff.mp hrun
  simp only [Prod.mk.injEq] at hshape
  obtain ⟨hlast, hsent, hstate, hfd0, hnext⟩ := hshape
  obtain ⟨⟨res, w'⟩, hprocess, hres⟩ := Option.map_eq_some_iff.mp hnext
  have hres' : res = .removeExecutorError := hres
  rw [hres'] at hprocess
  refine ⟨s, hcalls, hlast, hsent, fun hprogress => ?_, _, w', ⟨hfd0.symm, by decide, ?_, ?_⟩, rfl,
    hprocess, ?_⟩
  · exact hprogress.going hlast hsent
  · intro came hcame
    cases hcame
    exact ⟨List.nil_prefix, fun _ => List.drop_nil⟩
  · decide
  · rw [hstate]
    unfold Failed
    rw [if_neg (by decide)]
    exact fun hfailed => by cases hfailed.1

end FileServing
end EpollHttp
