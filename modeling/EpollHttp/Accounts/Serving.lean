import EpollHttp.Accounts.Reading
import EpollHttp.Recycling.Handlers

/-
The books of a connection that is answered by a file executor.

What was sent and what the buffer holds are the headers followed by what was read of the file,
whatever the file does meanwhile and whatever the calls are answered with.
-/

namespace EpollHttp

open Program TransferRingBuffer

/-- An answer: where its data is, the identity of the client, the headers, the file that follows
them and the number of bytes that were announced of it. -/
structure Answer where
  l : Nat
  r : Nat
  id0 : Nat
  header : Bytes
  file : Option Nat
  size : Int
  ids : file ≠ some id0

/-- An answer of headers alone. -/
def Answer.only (l r id0 : Nat) : Answer where
  l := l
  r := r
  id0 := id0
  header := []
  file := none
  size := 0
  ids := nofun

/-- An answer with a file. -/
def Answer.whole (l r : Nat) {id0 id : Nat} (hids : id ≠ id0) (size : Int) : Answer where
  l := l
  r := r
  id0 := id0
  header := []
  file := some id
  size := size
  ids := fun heq => hids (Option.some.inj heq)

/-- What was read of the file. -/
def Answer.came (c : Answer) (k : Kernel) : Bytes := c.file.elim [] k.taken

/-- The state in which the headers are sent. -/
def Answer.state (c : Answer) : ExecutorData.State :=
  if c.file = none then .sendOnlyHeaders else .sendHeaders

/-- The headers announce what follows them. -/
inductive Answer.Announces (c : Answer) : Prop
  | found (size : Nat) (lastModified : Bytes) (hfile : c.file ≠ none)
      (h : HttpResponse.ok200 size c.size lastModified = some c.header)
  | notModified (size : Nat) (hfile : c.file = none)
      (h : HttpResponse.notModified304 size = some c.header)
  | notFound (size : Nat) (hfile : c.file = none)
      (h : HttpResponse.notFound404 size = some c.header)

namespace Serving

structure Base (c : Answer) (w : World) : Prop where
  slots : Slots w c.l c.r
  client : w.kernel.openId? (w.data c.l c.r).fd0 = some c.id0
  buffer : (w.data c.l c.r).buffer.WellFormed

/-- The headers are sent, and nothing was read of the file. -/
structure Heading (c : Answer) (w : World) : Prop extends Base c w where
  state : (w.data c.l c.r).state = c.state
  front : (w.data c.l c.r).buffer.readHead ≤ (w.data c.l c.r).buffer.writeHead
  file : ∀ id, c.file = some id → w.kernel.openId? (w.data c.l c.r).fd1 = some id
  account : c.header = w.kernel.sent c.id0 ++ (w.data c.l c.r).buffer.unread
  came : c.came w.kernel = []
  toSend : c.file ≠ none → (w.data c.l c.r).bytesToSend = c.size
  nothing : c.file = none → c.size = 0
  position : (w.data c.l c.r).filePosition = 0

/-- The file is sent; the class without SSL holds none of it. -/
structure Following (c : Answer) (e : Executor) (w : World) : Prop extends Base c w where
  state : (w.data c.l c.r).state = .sendFile
  follows : c.file ≠ none
  file : ∀ id, c.file = some id → e = .file ∨ 0 < (w.data c.l c.r).fd1 →
    w.kernel.openId? (w.data c.l c.r).fd1 = some id
  account : c.header ++ c.came w.kernel = w.kernel.sent c.id0 ++ (w.data c.l c.r).buffer.unread
  began : c.header.length ≤ (w.kernel.sent c.id0).length
  toSend : (w.data c.l c.r).bytesToSend =
    c.size - ((w.kernel.sent c.id0).length - c.header.length : Int)
  plain : e = .file → (w.data c.l c.r).buffer.unread = [] ∧
    (w.data c.l c.r).filePosition = (c.came w.kernel).length ∧
    (c.came w.kernel).length ≤ c.size.toNat

end Serving

open Serving

inductive Serving (c : Answer) (e : Executor) (w : World) : Prop
  | headers (h : Heading c w)
  | body (h : Following c e w)

/-- Where the answer stands when a call returned `res`. -/
structure Delivered (c : Answer) (e : Executor) (res : ProcessResult) (k : Kernel) : Prop where
  order : k.sent c.id0 <+: c.header ++ c.came k
  bounded : e = .file → (k.sent c.id0).length ≤ c.header.length + c.size.toNat
  finished : res = .removeExecutorOk → ((k.sent c.id0).length : Int) = c.header.length + c.size

namespace Serving

/-- What a call ends with. -/
structure Post (c : Answer) (e : Executor) (res : ProcessResult) (w : World) : Prop where
  delivered : Delivered c e res w.kernel
  inv : res = .ok → Serving c e w

section
variable {c : Answer} {e : Executor} {w w' : World} {ans : Answers} {k : Kernel}

theorem Heading.delivered {res : ProcessResult} (h : Heading c w)
    (hres : res ≠ .removeExecutorOk) : Delivered c e res w.kernel := by
  refine ⟨?_, fun _ => ?_, fun heq => absurd heq hres⟩
  · rw [h.came, List.append_nil, h.account]
    exact List.prefix_append _ _
  · have hlen := congrArg List.length h.account
    rw [List.length_append] at hlen
    omega

theorem Following.delivered {res : ProcessResult} (h : Following c e w)
    (hres : res ≠ .removeExecutorOk) : Delivered c e res w.kernel := by
  refine ⟨?_, fun hplain => ?_, fun heq => absurd heq hres⟩
  · rw [h.account]
    exact List.prefix_append _ _
  · obtain ⟨_, _, hbound⟩ := h.plain hplain
    have hlen := congrArg List.length h.account
    rw [List.length_append, List.length_append] at hlen
    omega

theorem delivered {res : ProcessResult} (h : Serving c e w) (hres : res ≠ .removeExecutorOk) :
    Delivered c e res w.kernel := by
  cases h with
  | headers h => exact h.delivered hres
  | body h => exact h.delivered hres

theorem Post.ok (h : Serving c e w) : Post c e .ok w := ⟨h.delivered (by decide), fun _ => h⟩

theorem Post.error (h : Serving c e w) : Post c e .removeExecutorError w :=
  ⟨h.delivered (by decide), fun hok => by cases hok⟩

/-- Only fields that do not matter for the answer are assigned. -/
theorem Base.setData (h : Base c w) {d : ExecutorData} (hbuffer : d.buffer.WellFormed)
    (hfd0 : d.fd0 = (w.data c.l c.r).fd0) (h0 : d.pollData0 = (w.data c.l c.r).pollData0)
    (h1 : d.pollData1 = (w.data c.l c.r).pollData1) : Base c (w.setData c.l c.r d) := by
  refine ⟨h.slots.setData h0 h1, ?_, ?_⟩
  all_goals rw [World.setData_self]
  · rw [hfd0]
    exact h.client
  · exact hbuffer

theorem Base.setKernel (h : Base c w) (hopen : ∀ fd, k.openId? fd = w.kernel.openId? fd) :
    Base c (w.setKernel k) :=
  ⟨h.slots.setKernel k, (hopen _).trans h.client, h.buffer⟩

theorem Heading.setData (h : Heading c w) {d : ExecutorData}
    (hstate : d.state = (w.data c.l c.r).state) (hfd0 : d.fd0 = (w.data c.l c.r).fd0)
    (hfd1 : d.fd1 = (w.data c.l c.r).fd1) (h0 : d.pollData0 = (w.data c.l c.r).pollData0)
    (h1 : d.pollData1 = (w.data c.l c.r).pollData1)
    (hbuffer : d.buffer = (w.data c.l c.r).buffer)
    (htoSend : d.bytesToSend = (w.data c.l c.r).bytesToSend)
    (hposition : d.filePosition = (w.data c.l c.r).filePosition) :
    Heading c (w.setData c.l c.r d) := by
  refine ⟨h.toBase.setData (hbuffer ▸ h.buffer) hfd0 h0 h1, ?_, ?_, ?_, ?_, h.came, ?_, h.nothing,
    ?_⟩
  all_goals rw [World.setData_self]
  · exact hstate.trans h.state
  · rw [hbuffer]
    exact h.front
  · rw [hfd1]
    exact h.file
  · rw [hbuffer]
    exact h.account
  · rw [htoSend]
    exact h.toSend
  · exact hposition.trans h.position

theorem Following.setData (h : Following c e w) {d : ExecutorData}
    (hstate : d.state = (w.data c.l c.r).state) (hfd0 : d.fd0 = (w.data c.l c.r).fd0)
    (hfd1 : d.fd1 = (w.data c.l c.r).fd1) (h0 : d.pollData0 = (w.data c.l c.r).pollData0)
    (h1 : d.pollData1 = (w.data c.l c.r).pollData1) (hbuffer : d.buffer.WellFormed)
    (hunread : d.buffer.unread = (w.data c.l c.r).buffer.unread)
    (htoSend : d.bytesToSend = (w.data c.l c.r).bytesToSend)
    (hposition : d.filePosition = (w.data c.l c.r).filePosition) :
    Following c e (w.setData c.l c.r d) := by
  refine ⟨h.toBase.setData hbuffer hfd0 h0 h1, ?_, h.follows, ?_, ?_, h.began, ?_, ?_⟩
  all_goals rw [World.setData_self]
  · exact hstate.trans h.state
  · rw [hfd1]
    exact h.file
  · rw [hunread]
    exact h.account
  · exact htoSend.trans h.toSend
  · rw [hunread, hposition]
    exact h.plain

/-- No byte moved. -/
theorem Heading.streams (h : Heading c w) (hk : Kernel.SameStreams w.kernel k) :
    Heading c (w.setKernel k) := by
  have hcame : c.came k = c.came w.kernel := by
    unfold Answer.came
    rw [hk.taken]
  refine ⟨h.toBase.setKernel hk.openId?, h.state, h.front, fun id hid => ?_, ?_,
    hcame.trans h.came, h.toSend, h.nothing, h.position⟩
  · exact (hk.openId? _).trans (h.file id hid)
  · rw [World.setKernel_kernel, hk.sent]
    exact h.account

/-- Nothing was sent, and nothing was read of the file. -/
theorem Following.kernel (h : Following c e w) (hopen : ∀ fd, k.openId? fd = w.kernel.openId? fd)
    (hsent : k.sent c.id0 = w.kernel.sent c.id0) (hcame : c.came k = c.came w.kernel) :
    Following c e (w.setKernel k) := by
  refine ⟨h.toBase.setKernel hopen, h.state, h.follows, fun id hid ho => ?_, ?_, ?_, ?_, ?_⟩
  · exact (hopen _).trans (h.file id hid ho)
  · rw [World.setKernel_kernel, hsent, hcame]
    exact h.account
  · rw [World.setKernel_kernel, hsent]
    exact h.began
  · rw [World.setKernel_kernel, hsent]
    exact h.toSend
  · rw [World.setKernel_kernel, hcame]
    exact h.plain

/-! ## The headers -/

/-- `process_sendHeaders`, whatever the client takes. -/
theorem headers_post (h : Heading c w) :
    Ensures (FileExecutor.processSendHeaders e ans c.l c.r) w (Post c e) := by
  simp only [FileExecutor.processSendHeaders, ensures_bind, ensures_getData]
  cases hstart : (w.data c.l c.r).buffer.startRead with
  | none => exact ensures_pure.mpr (Post.error (.headers h))
  | some window =>
    have hwindow := startRead_some h.buffer hstart
    have hall := startRead_size h.buffer h.front hstart
    have hslice := hwindow.slice_eq h.buffer (Nat.le_refl _)
    rw [hall, List.take_length] at hslice
    dsimp only
    rw [hall, hslice, ensures_bind]
    refine (writeFd0_spec e h.client).mono (fun written w1 hwrote => ?_)
    obtain ⟨hcount, k, rfl, hk, _⟩ := hwrote
    have hle : written.result.toNat ≤ (w.data c.l c.r).buffer.unread.length := by omega
    have hsent : k.sent c.id0 = w.kernel.sent c.id0 ++
        (w.data c.l c.r).buffer.unread.take written.result.toNat := by
      rw [hk.sent]
      exact Function.update_self ..
    have hcame : c.came k = [] := by
      unfold Answer.came
      rw [hk.taken]
      exact h.came
    have hopen : ∀ fd, k.openId? fd = w.kernel.openId? fd := hk.openId?
    rw [ensures_ite]
    refine ⟨fun hneg => ?_, fun hmore => ?_⟩
    · -- Nothing was written.
      have hzero : written.result.toNat = 0 := by omega
      rw [hzero, List.take_zero, Kernel.send_nil] at hk
      have hsame := h.streams hk
      rw [ensures_ite, ensures_pure, ensures_bind, ensures_countRetry, ensures_pure]
      exact ⟨fun _ => Post.error (.headers hsame), fun _ =>
        Post.ok (.headers (hsame.setData rfl rfl rfl rfl rfl rfl rfl rfl))⟩
    · have hbase := h.toBase.setKernel hopen
      simp only [ensures_bind, ensures_clearRetries, ensures_modifyData, ensures_getData,
        ensures_ite, ensures_setState, ensures_pure, World.setData_self, World.setData_setData,
        World.setKernel_data]
      refine ⟨fun hfull => ?_, fun hpart => ?_⟩
      · -- The headers are sent as a whole.
        rw [List.take_of_length_le (by omega), ← h.account] at hsent
        refine ⟨fun honly => ?_, fun hfollows => ?_⟩
        · have hnone : c.file = none := by
            by_contra hsome
            have hstate := h.state
            unfold Answer.state at hstate
            rw [if_neg hsome, honly] at hstate
            cases hstate
          refine ⟨⟨?_, fun _ => ?_, fun _ => ?_⟩, fun hok => by cases hok⟩
          · rw [World.setData_kernel, World.setKernel_kernel, hcame, List.append_nil]
            exact hsent ▸ List.prefix_rfl
          · rw [World.setData_kernel, World.setKernel_kernel, hsent]
            exact Nat.le_add_right _ _
          · rw [World.setData_kernel, World.setKernel_kernel, hsent, h.nothing hnone]
            omega
        · have hsome : c.file ≠ none := by
            intro hnone
            have hstate := h.state
            unfold Answer.state at hstate
            rw [if_pos hnone] at hstate
            exact hfollows hstate
          have hempty : (w.data c.l c.r).buffer.clear.unread = [] := by
            rw [unread_of_le (Nat.le_refl _)]
            exact List.take_zero
          have hclear : (w.data c.l c.r).buffer.clear.WellFormed :=
            ⟨Nat.lt_of_le_of_lt (Nat.zero_le _) h.buffer.readHead, Nat.zero_le _⟩
          have hended : ∀ n, ((w.data c.l c.r).buffer.endRead n).clear =
              (w.data c.l c.r).buffer.clear := by
            intro n
            unfold TransferRingBuffer.endRead
            split <;> rfl
          rw [hended]
          refine Post.ok (.body ⟨hbase.setData hclear rfl rfl rfl, ?_, hsome, ?_, ?_, ?_, ?_, ?_⟩)
          · rw [World.setData_self]
          · rw [World.setData_self]
            exact fun id hid _ => (hopen _).trans (h.file id hid)
          · rw [World.setData_kernel, World.setKernel_kernel, World.setData_self, hsent, hcame,
              hempty]
          · rw [World.setData_kernel, World.setKernel_kernel, hsent]
          · rw [World.setData_kernel, World.setKernel_kernel, World.setData_self, hsent]
            show (w.data c.l c.r).bytesToSend = c.size - ((c.header.length : Int) - c.header.length)
            rw [h.toSend hsome]
            omega
          · rw [World.setData_kernel, World.setKernel_kernel, World.setData_self, hcame]
            exact fun _ => ⟨hempty, h.position, Nat.zero_le _⟩
      · have hrest := endRead_unread h.buffer hwindow (k := written.result.toNat) (by omega)
        have hwf := endRead_wellFormed h.buffer hwindow (k := written.result.toNat) (by omega)
        refine Post.ok (.headers ⟨hbase.setData hwf rfl rfl rfl, ?_, ?_, ?_, ?_, hcame, ?_,
          h.nothing, ?_⟩)
        · rw [World.setData_self]
          exact h.state
        · rw [World.setData_self]
          have hstart' := hwindow.start
          have hunread' := hwindow.unread h.front
          show ((w.data c.l c.r).buffer.endRead written.result.toNat).readHead ≤
            ((w.data c.l c.r).buffer.endRead written.result.toNat).writeHead
          unfold TransferRingBuffer.endRead
          split
          · exact Nat.zero_le _
          · show (w.data c.l c.r).buffer.readHead + written.result.toNat ≤
              (w.data c.l c.r).buffer.writeHead
            omega
        · rw [World.setData_self]
          exact fun id hid => (hopen _).trans (h.file id hid)
        · rw [World.setData_kernel, World.setKernel_kernel, World.setData_self, hsent]
          show c.header = _ ++ ((w.data c.l c.r).buffer.endRead written.result.toNat).unread
          rw [hrest, List.append_assoc, List.take_append_drop]
          exact h.account
        · rw [World.setData_self]
          exact h.toSend
        · rw [World.setData_self]
          exact h.position

/-! ## The file -/

/-- More of the file was read. -/
theorem came_take {id : Nat} (hid : c.file = some id) (k : Kernel) (bytes : Bytes) :
    c.came (k.take id bytes) = c.came k ++ bytes := by
  unfold Answer.came
  rw [hid]
  exact Function.update_self ..

/-- `process_sendFile` of the class without SSL. -/
theorem sendFile_post (h : Following c .file w) :
    Ensures (FileExecutor.processSendFile ans c.l c.r) w (Post c .file) := by
  obtain ⟨id, hid⟩ := Option.ne_none_iff_exists'.mp h.follows
  obtain ⟨hempty, hposition, hbound⟩ := h.plain rfl
  have htoSend := h.toSend
  have haccount := h.account
  rw [hempty, List.append_nil] at haccount
  have hlen := congrArg List.length haccount
  rw [List.length_append] at hlen
  simp only [FileExecutor.processSendFile, ensures_bind, ensures_getData]
  refine (sendfile_spec h.client (h.file id hid (Or.inl rfl))).mono (fun moved w1 hmoved => ?_)
  obtain ⟨_, hcases⟩ := hmoved
  rw [ensures_ite]
  rcases hcases with ⟨_, hresult, rfl⟩ | ⟨came, _, hresult, rfl⟩
  · refine ⟨fun _ => ?_, fun hpos => by omega⟩
    simp only [ensures_ite, ensures_bind, ensures_countRetry, ensures_pure]
    exact ⟨fun _ => Post.ok (.body (h.setData rfl rfl rfl rfl rfl h.buffer rfl rfl rfl)),
      fun _ => Post.error (.body h)⟩
  · -- What was read was sent.
    generalize hbytes : came.take (w.data c.l c.r).bytesToSend.toNat = bytes at hresult ⊢
    have hcount : bytes.length ≤ (w.data c.l c.r).bytesToSend.toNat := by
      rw [← hbytes, List.length_take]
      exact Nat.min_le_left _ _
    have hsent : ((w.kernel.take id bytes).send c.id0 bytes).sent c.id0 =
        w.kernel.sent c.id0 ++ bytes := Function.update_self ..
    have hcame : c.came ((w.kernel.take id bytes).send c.id0 bytes) = c.came w.kernel ++ bytes :=
      came_take hid w.kernel bytes
    have hbase := h.toBase.setKernel (k := (w.kernel.take id bytes).send c.id0 bytes)
      (fun _ => rfl)
    have hnext : Following c .file ((w.setKernel ((w.kernel.take id bytes).send c.id0
        bytes)).setData c.l c.r { w.data c.l c.r with
          filePosition := (w.data c.l c.r).filePosition + moved.result
          bytesToSend := (w.data c.l c.r).bytesToSend - moved.result
          retryCounter := 0 }) := by
      refine ⟨hbase.setData h.buffer rfl rfl rfl, ?_, h.follows, ?_, ?_, ?_, ?_, fun _ => ?_⟩
      · rw [World.setData_self]
        exact h.state
      · rw [World.setData_self]
        exact h.file
      · rw [World.setData_kernel, World.setKernel_kernel, World.setData_self, hsent, hcame,
          hempty, List.append_nil, ← haccount, List.append_assoc]
      · rw [World.setData_kernel, World.setKernel_kernel, hsent, List.length_append]
        exact Nat.le_add_right_of_le h.began
      · rw [World.setData_kernel, World.setKernel_kernel, World.setData_self, hsent,
          List.length_append]
        show (w.data c.l c.r).bytesToSend - moved.result = _
        push_cast
        omega
      · rw [World.setData_kernel, World.setKernel_kernel, World.setData_self, hcame,
          List.length_append]
        refine ⟨hempty, ?_, ?_⟩
        · show (w.data c.l c.r).filePosition + moved.result = _
          push_cast
          omega
        · omega
    refine ⟨fun hnone => ?_, fun _ => ?_⟩
    · have hnil : bytes = [] := by
        rw [← List.length_eq_zero_iff]
        omega
      rw [hnil] at hcame hsent ⊢
      rw [List.append_nil] at hcame hsent
      have hsame := h.kernel (k := (w.kernel.take id []).send c.id0 []) (fun _ => rfl) hsent hcame
      simp only [ensures_ite, ensures_bind, ensures_countRetry, ensures_pure]
      exact ⟨fun _ => Post.ok (.body (hsame.setData rfl rfl rfl rfl rfl h.buffer rfl rfl rfl)),
        fun _ => Post.error (.body hsame)⟩
    · simp only [ensures_bind, ensures_clearRetries, ensures_modifyData, ensures_getData,
        ensures_ite, ensures_pure, World.setData_self, World.setData_setData,
        World.setKernel_data]
      refine ⟨fun hzero => ⟨⟨?_, ?_, fun _ => ?_⟩, fun hok => by cases hok⟩,
        fun _ => Post.ok (.body hnext)⟩
      · exact (Post.ok (.body hnext)).delivered.order
      · exact (Post.ok (.body hnext)).delivered.bounded
      · have hleft := hnext.toSend
        rw [World.setData_self] at hleft
        have hdone : (w.data c.l c.r).bytesToSend - moved.result = 0 := hzero
        dsimp only at hleft
        omega

/-- `process` of the class without SSL. -/
theorem plain_post {fd : Int} {events : Nat} (h : Serving c .file w) :
    Ensures (FileExecutor.process .file ans c.l c.r fd events) w (Post c .file) := by
  unfold FileExecutor.process
  simp only [ensures_bind, ensures_getData, ensures_ite, ensures_pure]
  cases h with
  | headers h =>
    refine ⟨fun _ => headers_post h, fun _ => ⟨fun hbody => ?_, fun _ => Post.error (.headers h)⟩⟩
    have hstate := h.state
    unfold Answer.state at hstate
    rw [hbody.1] at hstate
    split at hstate <;> cases hstate
  | body h =>
    refine ⟨fun hheads => ?_, fun _ => ⟨fun _ => sendFile_post h, fun _ => Post.error (.body h)⟩⟩
    rw [h.state] at hheads
    rcases hheads.1 with hno | hno <;> cases hno

/-! ## The file through the buffer -/

theorem Following.ne (h : Following c .sslFile w) (hfd : 0 < (w.data c.l c.r).fd1) :
    (w.data c.l c.r).fd1 ≠ (w.data c.l c.r).fd0 := by
  obtain ⟨id, hid⟩ := Option.ne_none_iff_exists'.mp h.follows
  intro heq
  have hfile := h.file id hid (Or.inr hfd)
  rw [heq, h.client] at hfile
  exact c.ids (hid.trans hfile.symm)

/-- The file was closed at its end. -/
theorem Following.closed (h : Following c .sslFile w)
    (hclosed : ClosedUpstream w c.l c.r w') (hfd : 0 < (w.data c.l c.r).fd1) :
    Following c .sslFile w' := by
  obtain ⟨p1, hdata⟩ := hclosed.data
  have hcame : c.came w'.kernel = c.came w.kernel := by
    unfold Answer.came
    rw [hclosed.taken]
  refine ⟨⟨hclosed.slots, ?_, ?_⟩, ?_, h.follows, fun id hid hopen => ?_, ?_, ?_, ?_, fun hno => ?_⟩
  · rw [hdata, hclosed.opened _ (Ne.symm (h.ne hfd))]
    exact h.client
  · rw [hdata]
    exact h.buffer
  · rw [hdata]
    exact h.state
  · rw [hdata] at hopen
    rcases hopen with hno | hpos
    · cases hno
    · have hneg : (0 : Int) < -1 := hpos
      omega
  · rw [hdata, hclosed.sent, hcame]
    exact h.account
  · rw [hclosed.sent]
    exact h.began
  · rw [hdata, hclosed.sent]
    exact h.toSend
  · cases hno

/-- What was read of the file lies behind what the buffer held. -/
theorem readFile_follows (h : Following c .sslFile w) :
    Ensures (SslFileExecutor.readFile ans c.l c.r) w (fun _ w' => Following c .sslFile w') := by
  simp only [SslFileExecutor.readFile, ensures_bind, ensures_getData, ensures_ite, ensures_pure]
  refine ⟨fun hfd => ?_, fun _ => h⟩
  obtain ⟨id, hid⟩ := Option.ne_none_iff_exists'.mp h.follows
  obtain ⟨hwf, hsame, _⟩ := startWrite_snd h.buffer
  have hwrapped : Following c .sslFile (w.setData c.l c.r
      { w.data c.l c.r with buffer := (w.data c.l c.r).buffer.startWrite.2 }) :=
    h.setData rfl rfl rfl rfl rfl hwf hsame rfl rfl
  simp only [ensures_modifyData]
  cases hwindow : (w.data c.l c.r).buffer.startWrite.1 with
  | none => exact ensures_pure.mpr hwrapped
  | some window =>
    have hfree := startWrite_some h.buffer hwindow
    have hopen : (w.setData c.l c.r { w.data c.l c.r with
        buffer := (w.data c.l c.r).buffer.startWrite.2 }).kernel.openId?
          (w.data c.l c.r).fd1 = some id := h.file id hid (Or.inr hfd)
    generalize hw1 : w.setData c.l c.r { w.data c.l c.r with
      buffer := (w.data c.l c.r).buffer.startWrite.2 } = w1 at hwrapped hopen
    have hdata1 : w1.data c.l c.r = { w.data c.l c.r with
        buffer := (w.data c.l c.r).buffer.startWrite.2 } := by
      rw [← hw1, World.setData_self]
    simp only [ensures_bind]
    refine (read_spec hopen).mono (fun received w2 hreceived => ?_)
    rw [ensures_ite, ensures_ite]
    rcases hreceived with ⟨hres, rfl⟩ | ⟨came, _, hbytes, hres, rfl⟩
    · exact ⟨fun _ => ensures_pure.mpr hwrapped, fun hpos => by omega⟩
    · have hcame := came_take hid w1.kernel received.bytes
      refine ⟨fun hneg => by omega, fun _ => ⟨fun hzero => ?_, fun _ => ?_⟩⟩
      · -- The file is at its end.
        have hnil : received.bytes = [] := by
          rw [← List.length_eq_zero_iff]
          omega
        rw [hnil] at hcame ⊢
        rw [List.append_nil] at hcame
        have hread := hwrapped.kernel (k := w1.kernel.take id []) (fun _ => rfl) rfl hcame
        have hfd1 : ((w1.setKernel (w1.kernel.take id [])).data c.l c.r).fd1 =
            (w.data c.l c.r).fd1 := by
          rw [World.setKernel_data, hdata1]
        have hfd' := hfd
        rw [← hfd1] at hfd'
        have hcloseFd := closeFd1_spec hread.slots (hread.ne hfd')
        rw [hfd1] at hcloseFd
        simp only [ensures_bind, ensures_pure]
        exact hcloseFd.mono (fun _ w3 hclosed => hread.closed hclosed hfd')
      · simp only [ensures_bind, ensures_modifyData, ensures_pure]
        rw [World.setKernel_data, hdata1]
        have hcount : received.bytes.length ≤ window.size := by
          rw [hbytes, List.length_take]
          exact Nat.min_le_left _ _
        obtain ⟨hwf', hunread'⟩ := fill_endWrite hwf hfree hcount
        have hbase := hwrapped.toBase.setKernel (k := w1.kernel.take id received.bytes)
          (fun _ => rfl)
        refine ⟨hbase.setData hwf' ?_ ?_ ?_, ?_, h.follows, ?_, ?_, hwrapped.began, ?_,
          fun hno => by cases hno⟩
        · rw [World.setKernel_data, hdata1]
        · rw [World.setKernel_data, hdata1]
        · rw [World.setKernel_data, hdata1]
        · rw [World.setData_self]
          exact h.state
        · rw [World.setData_self]
          have hfile := hwrapped.file
          rw [hdata1] at hfile
          exact hfile
        · rw [World.setData_kernel, World.setKernel_kernel, World.setData_self, hcame]
          have haccount := hwrapped.account
          rw [hdata1] at haccount
          show c.header ++ (c.came w1.kernel ++ received.bytes) = w1.kernel.sent c.id0 ++ _
          rw [hunread', ← List.append_assoc, haccount, List.append_assoc]
        · rw [World.setData_self]
          have htoSend := hwrapped.toSend
          rw [hdata1] at htoSend
          exact htoSend

/-- The client was sent the first `n` bytes of what the buffer held. -/
theorem Following.sent {n : Nat} (h : Following c .sslFile w)
    (hwf : ((w.data c.l c.r).buffer.endRead n).WellFormed)
    (hrest : ((w.data c.l c.r).buffer.endRead n).unread = (w.data c.l c.r).buffer.unread.drop n)
    (hlen : ((w.data c.l c.r).buffer.unread.take n).length = n) :
    Following c .sslFile ((w.setKernel (w.kernel.send c.id0
      ((w.data c.l c.r).buffer.unread.take n))).setData c.l c.r { w.data c.l c.r with
        buffer := (w.data c.l c.r).buffer.endRead n
        bytesToSend := (w.data c.l c.r).bytesToSend - n }) := by
  have hsent : (w.kernel.send c.id0 ((w.data c.l c.r).buffer.unread.take n)).sent c.id0 =
      w.kernel.sent c.id0 ++ (w.data c.l c.r).buffer.unread.take n := Function.update_self ..
  have hbase := h.toBase.setKernel
    (k := w.kernel.send c.id0 ((w.data c.l c.r).buffer.unread.take n)) (fun _ => rfl)
  have htoSend := h.toSend
  refine ⟨hbase.setData hwf rfl rfl rfl, ?_, h.follows, ?_, ?_, ?_, ?_, fun hno => by cases hno⟩
  · rw [World.setData_self]
    exact h.state
  · rw [World.setData_self]
    exact h.file
  · rw [World.setData_kernel, World.setKernel_kernel, World.setData_self, hsent]
    show c.header ++ c.came w.kernel = _ ++ ((w.data c.l c.r).buffer.endRead n).unread
    rw [hrest, List.append_assoc, List.take_append_drop]
    exact h.account
  · rw [World.setData_kernel, World.setKernel_kernel, hsent, List.length_append]
    exact Nat.le_add_right_of_le h.began
  · rw [World.setData_kernel, World.setKernel_kernel, World.setData_self, hsent,
      List.length_append, hlen]
    show (w.data c.l c.r).bytesToSend - (n : Int) = _
    push_cast
    omega

theorem countOperation_follows {operationOk : Bool} (h : Following c .sslFile w) :
    Ensures (SslFileExecutor.countOperation c.l c.r operationOk) w (fun _ w' =>
      Post c .sslFile .ok w') := by
  cases operationOk with
  | true =>
    simp only [SslFileExecutor.countOperation, if_true, ensures_clearRetries]
    exact Post.ok (.body (h.setData rfl rfl rfl rfl rfl h.buffer rfl rfl rfl))
  | false =>
    simp only [SslFileExecutor.countOperation, ensures_countRetry, Bool.false_eq_true, if_false]
    exact Post.ok (.body (h.setData rfl rfl rfl rfl rfl h.buffer rfl rfl rfl))

/-- `process_sendFile` of the class with SSL, which may send more than was announced. -/
theorem sslSendFile_post (h : Following c .sslFile w) :
    Ensures (SslFileExecutor.processSendFile ans c.l c.r) w (Post c .sslFile) := by
  simp only [SslFileExecutor.processSendFile, ensures_bind]
  refine (readFile_follows h).mono (fun file w1 h1 => ?_)
  cases file with
  | none => exact ensures_pure.mpr (Post.error (.body h1))
  | some operationOk =>
    simp only [ensures_bind, ensures_getData]
    cases hstart : (w1.data c.l c.r).buffer.startRead with
    | none =>
      simp only [ensures_ite, ensures_bind, ensures_pure]
      exact ⟨fun _ => Post.error (.body h1), fun _ => countOperation_follows h1⟩
    | some window =>
      have hwindow := startRead_some h1.buffer hstart
      have hslice := hwindow.slice_eq h1.buffer (Nat.le_refl _)
      dsimp only
      rw [hslice, ensures_bind]
      refine (sslWrite_spec h1.client).mono (fun written w2 hwritten => ?_)
      obtain ⟨hresult, rfl⟩ := hwritten
      rw [List.length_take] at hresult
      rw [ensures_ite]
      refine ⟨fun hpos => ?_, fun hneg => ?_⟩
      · have hle : written.toNat ≤ window.size := by omega
        have hrest := endRead_unread h1.buffer hwindow hle
        have hwf := endRead_wellFormed h1.buffer hwindow hle
        have hlen : ((w1.data c.l c.r).buffer.unread.take written.toNat).length =
            written.toNat := by
          rw [List.length_take]
          omega
        rw [List.take_take, Nat.min_eq_left hle]
        have hnext := h1.sent (n := written.toNat) hwf hrest hlen
        have hnat : ((written.toNat : Nat) : Int) = written := by omega
        rw [hnat] at hnext
        simp only [ensures_bind, ensures_modifyData, ensures_getData, ensures_ite, ensures_pure,
          World.setKernel_data, World.setData_self]
        refine ⟨fun hzero => ⟨⟨?_, fun hno => (by cases hno), fun _ => ?_⟩, fun hok => by cases hok⟩,
          fun _ => countOperation_follows hnext⟩
        · exact (Post.ok (.body hnext)).delivered.order
        · have hleft := hnext.toSend
          rw [World.setData_self] at hleft
          dsimp only at hleft
          omega
      · -- Nothing was written.
        have hzero : written.toNat = 0 := by omega
        have hself : w1.setKernel w1.kernel = w1 := rfl
        rw [hzero, List.take_zero, Kernel.send_nil, hself]
        cases ans.sslWriteError with
        | wantWrite => exact ensures_pure.mpr (Post.ok (.body h1))
        | other => exact ensures_pure.mpr (Post.error (.body h1))
        | wantRead =>
          simp only [ensures_bind, ensures_ite, ensures_pure]
          refine editPollFd_spec.mono (fun edited w3 h3 => ?_)
          have hedited : Following c .sslFile w3 := by
            rcases h3 with ⟨_, _, k, _, hk, rfl⟩ | ⟨_, rfl⟩
            · have hsame := Kernel.SameStreams.ctlMod hk
              refine h1.kernel hsame.openId? (by rw [hsame.sent]) ?_
              unfold Answer.came
              rw [hsame.taken]
            · exact h1
          exact ⟨fun _ => Post.error (.body hedited), fun _ => countOperation_follows hedited⟩

/-- `process` of the class with SSL. -/
theorem ssl_post {fd : Int} {events : Nat} (h : Serving c .sslFile w) :
    Ensures (SslFileExecutor.process ans c.l c.r fd events) w (Post c .sslFile) := by
  unfold SslFileExecutor.process FileExecutor.process
  simp only [ensures_bind, ensures_getData, ensures_ite, ensures_pure]
  cases h with
  | headers h =>
    refine ⟨fun hbody => ?_, fun _ => ⟨fun _ => headers_post h, fun _ => ⟨fun hbody => ?_,
      fun _ => Post.error (.headers h)⟩⟩⟩
    all_goals
      have hstate := h.state
      unfold Answer.state at hstate
      rw [hbody.1] at hstate
      split at hstate <;> cases hstate
  | body h =>
    refine ⟨fun _ => sslSendFile_post h, fun hother => ⟨fun hheads => ?_, fun _ =>
      ⟨fun hbody => ?_, fun _ => Post.error (.body h)⟩⟩⟩
    · rw [h.state] at hheads
      rcases hheads.1 with hno | hno <;> cases hno
    · exact absurd ⟨hbody.1, hbody.2.1, Or.inr hbody.2.2⟩ hother

/-! ## The beginning -/

/-- The headers are the only bytes in the buffer. -/
structure Headed (l r : Nat) (text : Nat → Option Bytes) (state : ExecutorData.State)
    (w w' : World) : Prop where
  streams : Kernel.SameStreams w.kernel w'.kernel
  slots : Slots w l r → Slots w' l r
  data : ∃ (size : Nat) (header : Bytes) (buffer : TransferRingBuffer), text size = some header ∧
    buffer.WellFormed ∧ buffer.readHead = 0 ∧ buffer.unread = header ∧
    w'.data l r = { w.data l r with buffer := buffer, state := state }

variable {l r : Nat} {text : Nat → Option Bytes} {state : ExecutorData.State}

theorem createHeaders_spec (hb : (w.data l r).buffer.WellFormed)
    (htext : FileExecutor.Fits text) :
    Ensures (FileExecutor.createHeaders l r text) w (fun res w' =>
      res = 0 → Headed l r text (w.data l r).state w w') := by
  have hclear : (w.data l r).buffer.clear.WellFormed :=
    ⟨Nat.lt_of_le_of_lt (Nat.zero_le _) hb.readHead, Nat.zero_le _⟩
  have hempty : (w.data l r).buffer.clear.unread = [] := by
    rw [unread_of_le (Nat.le_refl _)]
    exact List.take_zero
  obtain ⟨hwf, hsame, _, hread, _⟩ := startWrite_snd hclear
  simp only [FileExecutor.createHeaders, ensures_bind, ensures_getData, ensures_modifyData]
  cases hwindow : (w.data l r).buffer.clear.startWrite.1 with
  | none => exact ensures_pure.mpr (fun hno => absurd hno (by decide))
  | some window =>
    have hfree := startWrite_some hclear hwindow
    dsimp only
    cases hheader : text window.size with
    | none => exact ensures_pure.mpr (fun hno => absurd hno (by decide))
    | some header =>
      have hlength := htext _ _ hheader
      obtain ⟨hwf', hunread'⟩ := fill_append_endWrite hwf hfree
        (show header.length + [0].length ≤ window.size by rw [List.length_singleton]; omega)
      obtain ⟨hread', _, _⟩ := fill_heads (w.data l r).buffer.clear.startWrite.2 window.start
        (header ++ [0])
      simp only [ensures_bind, ensures_modifyData, ensures_pure, World.setData_self,
        World.setData_setData]
      refine fun _ => ⟨.refl _, fun hslots => hslots.setData rfl rfl, window.size, header, _,
        hheader, hwf', hread'.trans hread, ?_, World.setData_self ..⟩
      rw [hunread', hsame, hempty, List.nil_append]

theorem Headed.setState (h : Headed l r text state w w') (state' : ExecutorData.State) :
    Headed l r text state' w (w'.setData l r { w'.data l r with state := state' }) := by
  obtain ⟨size, header, buffer, htext, hwf, hfront, hunread, hdata⟩ := h.data
  refine ⟨h.streams, fun hslots => (h.slots hslots).setData rfl rfl, size, header, buffer, htext,
    hwf, hfront, hunread, ?_⟩
  rw [World.setData_self, hdata]

/-- The client is watched, which the headers do not depend on. -/
theorem Headed.watched (h : Headed l r text state w w') :
    Ensures (FileExecutor.watchClient ans l r) w' (fun _ w'' =>
      Headed l r text state w w'') := by
  simp only [FileExecutor.watchClient, ensures_bind, ensures_getData, ensures_ite, ensures_pure]
  refine editPollFd_spec.mono (fun edited w1 h1 => ?_)
  have hedited : Headed l r text state w w1 := by
    rcases h1 with ⟨_, _, k, _, hk, rfl⟩ | ⟨_, rfl⟩
    · exact ⟨h.streams.trans (.ctlMod hk), fun hslots => (h.slots hslots).setKernel k, h.data⟩
    · exact h
  exact ⟨fun _ => hedited, fun _ => hedited⟩

/-- The connection of the client, in front of the headers. -/
structure Prepared (c : Answer) (w : World) : Prop where
  slots : Slots w c.l c.r
  client : w.kernel.openId? (w.data c.l c.r).fd0 = some c.id0
  file : ∀ id, c.file = some id → w.kernel.openId? (w.data c.l c.r).fd1 = some id
  sent : w.kernel.sent c.id0 = []
  came : c.came w.kernel = []
  position : (w.data c.l c.r).filePosition = 0
  toSend : c.file ≠ none → (w.data c.l c.r).bytesToSend = c.size
  nothing : c.file = none → c.size = 0
  buffer : (w.data c.l c.r).buffer.WellFormed

theorem Prepared.heading (hp : Prepared c w) (h : Headed c.l c.r text c.state w w') :
    ∃ size header, text size = some header ∧ Heading { c with header := header } w' := by
  obtain ⟨size, header, buffer, htext, hwf, hfront, hunread, hdata⟩ := h.data
  have hcame : c.came w'.kernel = c.came w.kernel := by
    unfold Answer.came
    rw [h.streams.taken]
  refine ⟨size, header, htext, ⟨h.slots hp.slots, ?_, ?_⟩, ?_, ?_, fun id hid => ?_, ?_,
    hcame.trans hp.came, fun hsome => ?_, hp.nothing, ?_⟩
  all_goals
    dsimp only
    rw [hdata]
  · exact (h.streams.openId? _).trans hp.client
  · exact hwf
  · rfl
  · show buffer.readHead ≤ buffer.writeHead
    rw [hfront]
    exact Nat.zero_le _
  · exact (h.streams.openId? _).trans (hp.file id hid)
  · rw [h.streams.sent, hp.sent, List.nil_append]
    exact hunread.symm
  · exact hp.toSend hsome
  · exact hp.position

/-- What `up` begins an answer with: the client, and no byte of the request left to be read. -/
structure Begun (l r id0 : Nat) (w : World) : Prop where
  slots : Slots w l r
  client : w.kernel.openId? (w.data l r).fd0 = some id0
  sent : w.kernel.sent id0 = []
  position : (w.data l r).filePosition = 0
  buffer : (w.data l r).buffer.WellFormed

theorem Begun.only {id0 : Nat} (h : Begun l r id0 w) : Prepared (Answer.only l r id0) w :=
  ⟨h.slots, h.client, nofun, h.sent, rfl, h.position, fun hno => absurd rfl hno, fun _ => rfl,
    h.buffer⟩

theorem upNotFound_serves {id0 : Nat} (h : Begun l r id0 w) :
    Ensures (FileExecutor.upNotFound ans l r) w (fun res w' => res = 0 → ∃ c : Answer,
      c.l = l ∧ c.r = r ∧ c.id0 = id0 ∧ c.Announces ∧ Heading c w') := by
  rw [FileExecutor.upNotFound, ensures_bind]
  refine (createHeaders_spec h.buffer (FileExecutor.fits_printed _)).mono
    (fun created w1 h1 => ?_)
  rw [ensures_ite, ensures_pure]
  refine ⟨fun hne hzero => absurd hzero (by decide), fun hok => ?_⟩
  rw [ensures_bind]
  refine (h1 (not_not.mp hok)).watched.mono (fun watching w2 h2 => ?_)
  simp only [ensures_ite, ensures_pure, ensures_bind, ensures_setState]
  refine ⟨fun hne hzero => absurd hzero (by decide), fun _ _ => ?_⟩
  obtain ⟨size, header, htext, hheading⟩ := h.only.heading (h2.setState .sendOnlyHeaders)
  exact ⟨{ Answer.only l r id0 with header := header }, rfl, rfl, rfl,
    .notFound size rfl htext, hheading⟩

/-- The file is open: the headers tell its size, or that it was not modified. -/
theorem upOpened_serves {id0 id : Nat} (h : Begun l r id0 w) (hids : id ≠ id0)
    (hfile : w.kernel.openId? (w.data l r).fd1 = some id) (htaken : w.kernel.taken id = []) :
    Ensures (FileExecutor.upOpened ans l r) w (fun res w' => res = 0 → ∃ c : Answer,
      c.l = l ∧ c.r = r ∧ c.id0 = id0 ∧ c.Announces ∧ Heading c w') := by
  unfold FileExecutor.upOpened
  cases ans.fstat with
  | none => exact ensures_pure.mpr (fun hno => absurd hno (by decide))
  | some found =>
    obtain ⟨size, lastModified⟩ := found
    dsimp only
    rw [ensures_bind, ensures_modifyData]
    have hbegun : Begun l r id0 (w.setData l r { w.data l r with bytesToSend := size }) := by
      refine ⟨h.slots.setData rfl rfl, ?_, h.sent, ?_, ?_⟩
      all_goals rw [World.setData_self]
      · exact h.client
      · exact h.position
      · exact h.buffer
    have hopen : (w.setData l r { w.data l r with bytesToSend := size }).kernel.openId?
        ((w.setData l r { w.data l r with bytesToSend := size }).data l r).fd1 = some id := by
      rw [World.setData_self]
      exact hfile
    have hsize : ((w.setData l r { w.data l r with bytesToSend := size }).data l r).bytesToSend =
        size := by
      rw [World.setData_self]
    rw [← World.setData_kernel w l r { w.data l r with bytesToSend := size }] at htaken
    generalize w.setData l r { w.data l r with bytesToSend := size } = w1
      at hbegun hopen hsize htaken ⊢
    rw [ensures_bind, ensures_getData, ensures_ite]
    refine ⟨fun _ => ?_, fun _ => ?_⟩
    · rw [ensures_bind]
      refine (createHeaders_spec hbegun.buffer (FileExecutor.fits_printed _)).mono
        (fun created w2 h2 => ?_)
      rw [ensures_ite, ensures_pure, ensures_bind, ensures_setState]
      refine ⟨fun hne hzero => absurd hzero (by decide), fun hok => ?_⟩
      refine ((h2 (not_not.mp hok)).setState .sendOnlyHeaders).watched.mono (fun _ w3 h3 _ => ?_)
      obtain ⟨window, header, htext, hheading⟩ := hbegun.only.heading h3
      exact ⟨{ Answer.only l r id0 with header := header }, rfl, rfl, rfl,
        .notModified window rfl htext, hheading⟩
    · have hprepared : Prepared (Answer.whole l r hids size) w1 := by
        refine ⟨hbegun.slots, hbegun.client, fun id' hid => ?_, hbegun.sent, htaken,
          hbegun.position, fun _ => hsize, fun hno => absurd hno (by nofun), hbegun.buffer⟩
        obtain rfl := Option.some.inj hid
        exact hopen
      rw [FileExecutor.createOkResponse, ensures_bind, ensures_bind, ensures_getData]
      refine (createHeaders_spec hbegun.buffer (FileExecutor.fits_printed _)).mono
        (fun created w2 h2 => ?_)
      rw [ensures_ite, ensures_pure, ensures_bind, ensures_setState]
      refine ⟨fun hne hzero => absurd hzero (by decide), fun hok => ?_⟩
      refine ((h2 (not_not.mp hok)).setState .sendHeaders).watched.mono (fun _ w3 h3 _ => ?_)
      obtain ⟨window, header, htext, hheading⟩ := hprepared.heading h3
      rw [hsize] at htext
      exact ⟨{ Answer.whole l r hids size with header := header }, rfl, rfl, rfl,
        .found window _ (by nofun) htext, hheading⟩

/-- A successful `up` leaves the headers of an answer to the client. -/
theorem up_serves {id0 : Nat} (hread : Reads l r id0 w) (hslots : Slots w l r) :
    Ensures (FileExecutor.up ans l r) w (fun res w' => res = 0 → ∃ c : Answer,
      c.l = l ∧ c.r = r ∧ c.id0 = id0 ∧ c.Announces ∧ Heading c w') := by
  rw [FileExecutor.up, ensures_bind, ensures_modifyData]
  have hread1 : Reads l r id0 (w.setData l r { w.data l r with removeOnTimeout := true }) := by
    unfold Reads
    rw [World.setData_self]
    exact ⟨hread.client, hread.sent, hread.buffer, hread.size, hread.front, hread.held,
      hread.session, hread.pipe, hread.position⟩
  have hslots1 := hslots.setData (d := { w.data l r with removeOnTimeout := true }) rfl rfl
  generalize w.setData l r { w.data l r with removeOnTimeout := true } = w1 at hread1 hslots1
  rw [ensures_bind]
  refine newDescriptor_spec.mono (fun fd w2 hnew => ?_)
  rw [ensures_bind, ensures_modifyData, ensures_ite]
  rcases hnew with ⟨rfl, rfl⟩ | ⟨rfl, havail, rfl⟩
  · refine ⟨fun _ => ?_, fun hpos => absurd (by decide) hpos⟩
    have hbegun : Begun l r id0 (w2.setData l r { w2.data l r with fd1 := -1 }) := by
      refine ⟨hslots1.setData rfl rfl, ?_, hread1.sent, ?_, ?_⟩
      all_goals rw [World.setData_self]
      · exact hread1.client
      · exact hread1.position
      · exact hread1.buffer
    rw [ensures_ite, ensures_pure]
    exact ⟨fun _ => upNotFound_serves hbegun, fun _ hno => absurd hno (by decide)⟩
  · have hpos := havail.1
    refine ⟨fun hneg => by omega, fun _ => ?_⟩
    have hbelow := Kernel.openId?_below hread1.client
    have hne : (w1.data l r).fd0 ≠ ans.openFile := by
      intro heq
      have hclient := hread1.client
      rw [heq, havail.2] at hclient
      cases hclient
    have hbegun : Begun l r id0 ((w1.setKernel (w1.kernel.opened ans.openFile false)).setData l r
        { (w1.setKernel (w1.kernel.opened ans.openFile false)).data l r with
          fd1 := ans.openFile }) := by
      refine ⟨(hslots1.setKernel _).setData rfl rfl, ?_, ?_, ?_, ?_⟩
      · rw [World.setData_self, World.setData_kernel]
        exact (Kernel.openId?_opened_of_ne hne false).trans hread1.client
      · rw [World.setData_kernel]
        exact (Function.update_of_ne (Nat.ne_of_lt hbelow) ..).trans hread1.sent
      · rw [World.setData_self]
        exact hread1.position
      · rw [World.setData_self]
        exact hread1.buffer
    refine upOpened_serves hbegun (Nat.ne_of_gt hbelow) ?_ ?_
    · rw [World.setData_self, World.setData_kernel]
      exact Kernel.openId?_opened_self ..
    · rw [World.setData_kernel]
      exact Function.update_self ..

end

end Serving

end EpollHttp
