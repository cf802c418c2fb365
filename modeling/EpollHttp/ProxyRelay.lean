import EpollHttp.Lib.Fifo
import EpollHttp.Executors.ProxyRun
import EpollHttp.Executors.ProxyExecutorReadWrite
import EpollHttp.Executors.ProxyExecutorSplice

/-
A proxy executor copies the request to the upstream server and the response to the client.

The response goes through a ring buffer in one class and through a pipe in the other.  Both are
media of the same copying: what was taken from the upstream server is what was sent to the
client followed by what the medium holds.
-/

namespace EpollHttp
namespace ProxyRelay

open Program ProxyExecutor TransferRingBuffer

/-- The two classes. -/
inductive Relay
  | readWrite (e : Executor)
  | splice

namespace Relay

def up (x : Relay) (ans : Answers) (l r : Nat) : Prog Int :=
  match x with
  | .readWrite _ => ProxyExecutorReadWrite.up ans l r
  | .splice => ProxyExecutorSplice.up ans l r

def process (x : Relay) (ans : Answers) (l r : Nat) (fd : Int) (events : Nat) :
    Prog ProcessResult :=
  match x with
  | .readWrite e => ProxyExecutorReadWrite.process e ans l r fd events
  | .splice => ProxyExecutorSplice.process ans l r fd events

end Relay

/-- A connection: where its data is, the identities of the client and the upstream server, the
request, and what was sent to the client before. -/
structure Connection where
  l : Nat
  r : Nat
  id0 : Nat
  id1 : Nat
  request : Bytes
  base : Bytes
  ids : id0 ≠ id1

/-- What the streams of a connection are when a call returned `res`. -/
structure Integrity (c : Connection) (res : ProcessResult) (state : ExecutorData.State)
    (k : Kernel) : Prop where
  request : k.sent c.id1 <+: c.request
  complete : state = .forwardResponse ∨ state = .forwardResponseOnlyWrite →
    k.sent c.id1 = c.request
  response : ∃ delivered, k.sent c.id0 = c.base ++ delivered ∧ delivered <+: k.taken c.id1
  finished : res = .removeExecutorOk →
    k.ended c.id1 = true ∧ k.sent c.id0 = c.base ++ k.taken c.id1

/-! ## The invariant -/

/-- The response as a transfer. -/
structure Copied (c : Connection) (k : Kernel) (q : Fifo UInt8) : Prop where
  taken : k.taken c.id1 = q.put
  sent : k.sent c.id0 = c.base ++ q.got

/-- The fields that say where the bytes are. -/
structure SameTransfer (d d' : ExecutorData) : Prop where
  state : d'.state = d.state
  fd0 : d'.fd0 = d.fd0
  fd1 : d'.fd1 = d.fd1
  pipeReadFd : d'.pipeReadFd = d.pipeReadFd
  pipeWriteFd : d'.pipeWriteFd = d.pipeWriteFd
  bytesInPipe : d'.bytesInPipe = d.bytesInPipe
  buffer : d'.buffer = d.buffer

/-- What the bytes of the response go through. -/
structure Medium where
  holds : ExecutorData → Kernel → Bytes → Prop
  frame : ∀ {d d' : ExecutorData} {k k' : Kernel} {held : Bytes}, SameTransfer d d' →
    k'.table = k.table → k'.pipes = k.pipes → k'.readEnd = k.readEnd → holds d k held →
    holds d' k' held

structure Requesting (c : Connection) (w : World) : Prop where
  slots : Slots w c.l c.r
  client : w.kernel.openId? (w.data c.l c.r).fd0 = some c.id0
  server : w.kernel.openId? (w.data c.l c.r).fd1 = some c.id1
  state : (w.data c.l c.r).state = .waitConnect ∨ (w.data c.l c.r).state = .forwardRequest
  buffer : (w.data c.l c.r).buffer.WellFormed
  front : (w.data c.l c.r).buffer.readHead ≤ (w.data c.l c.r).buffer.writeHead
  request : c.request = w.kernel.sent c.id1 ++ (w.data c.l c.r).buffer.unread
  copied : Copied c w.kernel Fifo.empty
  pipe : (w.data c.l c.r).bytesInPipe = 0

structure Responding (M : Medium) (c : Connection) (q : Fifo UInt8) (w : World) : Prop where
  slots : Slots w c.l c.r
  client : w.kernel.openId? (w.data c.l c.r).fd0 = some c.id0
  phase : (w.data c.l c.r).state = .forwardResponse ∧
      w.kernel.openId? (w.data c.l c.r).fd1 = some c.id1 ∨
    (w.data c.l c.r).state = .forwardResponseOnlyWrite ∧ w.kernel.ended c.id1 = true
  request : w.kernel.sent c.id1 = c.request
  copied : Copied c w.kernel q
  medium : M.holds (w.data c.l c.r) w.kernel q.held

inductive Inv (M : Medium) (c : Connection) (w : World) : Prop
  | requesting (h : Requesting c w)
  | responding (q : Fifo UInt8) (h : Responding M c q w)

/-- What a call ends with. -/
structure Post (M : Medium) (c : Connection) (res : ProcessResult) (w : World) : Prop where
  integrity : Integrity c res (w.data c.l c.r).state w.kernel
  inv : res = .ok → Inv M c w

section
variable {M N : Medium} {c : Connection} {q : Fifo UInt8} {w w' : World}

theorem Copied.response {k : Kernel} (h : Copied c k q) :
    ∃ delivered, k.sent c.id0 = c.base ++ delivered ∧ delivered <+: k.taken c.id1 :=
  ⟨q.got, h.sent, by rw [h.taken]; exact q.got_front⟩

theorem Inv.integrity {res : ProcessResult} (h : Inv M c w) (hres : res ≠ .removeExecutorOk) :
    Integrity c res (w.data c.l c.r).state w.kernel := by
  cases h with
  | requesting h =>
    refine ⟨⟨_, h.request.symm⟩, fun hs => ?_, h.copied.response, fun heq => absurd heq hres⟩
    rcases hs with hs | hs <;> rcases h.state with hr | hr <;> rw [hs] at hr <;> cases hr
  | responding q h =>
    refine ⟨?_, fun _ => h.request, h.copied.response, fun heq => absurd heq hres⟩
    exact h.request ▸ List.prefix_rfl

/-- A call that goes on keeps the invariant. -/
theorem Post.ok (h : Inv M c w) : Post M c .ok w :=
  ⟨h.integrity (by decide), fun _ => h⟩

/-- A call that fails may leave another medium behind. -/
theorem Post.error (h : Inv N c w) : Post M c .removeExecutorError w :=
  ⟨h.integrity (by decide), fun hok => by cases hok⟩

/-- A call that ends the connection finds the medium empty. -/
theorem Post.finished (h : Responding M c q w)
    (hs : (w.data c.l c.r).state = .forwardResponseOnlyWrite) (hempty : q.held = []) :
    Post M c .removeExecutorOk w := by
  have hended : w.kernel.ended c.id1 = true := by
    rcases h.phase with ⟨hfr, _⟩ | ⟨_, hended⟩
    · rw [hs] at hfr
      cases hfr
    · exact hended
  refine ⟨⟨?_, fun _ => h.request, h.copied.response, fun _ => ⟨hended, ?_⟩⟩,
    fun hok => by cases hok⟩
  · exact h.request ▸ List.prefix_rfl
  · rw [h.copied.sent, h.copied.taken, Fifo.got_all hempty]

theorem Copied.congr {k k' : Kernel} (h : Copied c k q) (hk : Kernel.SameStreams k k') :
    Copied c k' q := by
  refine ⟨?_, ?_⟩
  · rw [hk.taken]
    exact h.taken
  · rw [hk.sent]
    exact h.sent

theorem Copied.take {k : Kernel} (h : Copied c k q) (bytes : Bytes) :
    Copied c (k.take c.id1 bytes) (q.write bytes) := by
  refine ⟨?_, h.sent⟩
  show Function.update k.taken c.id1 (k.taken c.id1 ++ bytes) c.id1 = q.put ++ bytes
  rw [Function.update_self, h.taken]

theorem Copied.send {k : Kernel} (h : Copied c k q) {n : Nat} {bytes : Bytes}
    (hbytes : bytes = q.held.take n) : Copied c (k.send c.id0 bytes) (q.read n) := by
  refine ⟨h.taken, ?_⟩
  show Function.update k.sent c.id0 (k.sent c.id0 ++ bytes) c.id0 = c.base ++ (q.got ++ q.held.take n)
  rw [Function.update_self, h.sent, hbytes, List.append_assoc]

/-- Nothing that matters for the transfer changed. -/
theorem Requesting.congr (h : Requesting c w) (hslots : Slots w' c.l c.r)
    (hd : SameTransfer (w.data c.l c.r) (w'.data c.l c.r))
    (hk : Kernel.SameStreams w.kernel w'.kernel) : Requesting c w' where
  slots := hslots
  client := by rw [hd.fd0, hk.openId?]; exact h.client
  server := by rw [hd.fd1, hk.openId?]; exact h.server
  state := by rw [hd.state]; exact h.state
  buffer := by rw [hd.buffer]; exact h.buffer
  front := by rw [hd.buffer]; exact h.front
  request := by rw [hd.buffer, hk.sent]; exact h.request
  copied := h.copied.congr hk
  pipe := by rw [hd.bytesInPipe]; exact h.pipe

theorem Responding.congr (h : Responding M c q w) (hslots : Slots w' c.l c.r)
    (hd : SameTransfer (w.data c.l c.r) (w'.data c.l c.r))
    (hk : Kernel.SameStreams w.kernel w'.kernel) : Responding M c q w' where
  slots := hslots
  client := by rw [hd.fd0, hk.openId?]; exact h.client
  phase := by rw [hd.state, hd.fd1, hk.openId?, hk.ended]; exact h.phase
  request := by rw [hk.sent]; exact h.request
  copied := h.copied.congr hk
  medium := M.frame hd hk.table hk.pipes hk.readEnd h.medium

theorem Responding.ne (h : Responding M c q w) (hs : (w.data c.l c.r).state = .forwardResponse) :
    (w.data c.l c.r).fd1 ≠ (w.data c.l c.r).fd0 := by
  rcases h.phase with ⟨_, hserver⟩ | ⟨how, _⟩
  · intro heq
    rw [heq, h.client] at hserver
    exact c.ids (Option.some.inj hserver)
  · rw [hs] at how
    cases how

theorem Responding.server (h : Responding M c q w)
    (hs : (w.data c.l c.r).state = .forwardResponse) :
    w.kernel.openId? (w.data c.l c.r).fd1 = some c.id1 := by
  rcases h.phase with ⟨_, hserver⟩ | ⟨how, _⟩
  · exact hserver
  · rw [hs] at how
    cases how

/-- The upstream server was read and nothing came. -/
theorem Responding.ended (h : Responding M c q w)
    (hs : (w.data c.l c.r).state = .forwardResponse) :
    Responding M c q (w.setKernel (w.kernel.take c.id1 [])) ∧
      (w.kernel.take c.id1 []).ended c.id1 = true := by
  have htaken : (w.kernel.take c.id1 []).taken c.id1 = w.kernel.taken c.id1 := by
    show Function.update w.kernel.taken c.id1 (w.kernel.taken c.id1 ++ []) c.id1 = _
    rw [Function.update_self, List.append_nil]
  have hended : (w.kernel.take c.id1 []).ended c.id1 = true := by
    show Function.update w.kernel.ended c.id1 (w.kernel.ended c.id1 || true) c.id1 = true
    rw [Function.update_self, Bool.or_true]
  refine ⟨⟨h.slots.setKernel _, h.client, Or.inl ⟨hs, h.server hs⟩, h.request,
    ⟨?_, h.copied.sent⟩, ?_⟩, hended⟩
  · rw [World.setKernel_kernel, htaken]
    exact h.copied.taken
  · refine M.frame (k := w.kernel) ⟨rfl, rfl, rfl, rfl, rfl, rfl, rfl⟩ rfl rfl rfl ?_
    exact h.medium

/-- Only fields that do not matter for the transfer are assigned. -/
theorem Responding.setData (h : Responding M c q w) {d : ExecutorData}
    (hd : SameTransfer (w.data c.l c.r) d) (h0 : d.pollData0 = (w.data c.l c.r).pollData0)
    (h1 : d.pollData1 = (w.data c.l c.r).pollData1) : Responding M c q (w.setData c.l c.r d) :=
  h.congr (h.slots.setData h0 h1) (by rw [World.setData_self]; exact hd) (Kernel.SameStreams.refl _)

theorem Responding.rewatch {d : ExecutorData} {fd : Int} (h : Responding M c q w)
    (hw : Rewatch c.l c.r fd w d w') (hd : SameTransfer (w.data c.l c.r) d) :
    Responding M c q w' :=
  h.congr hw.base.slots (by rw [hw.data]; exact hd) hw.base.streams

end

/-! ## The parts of a call that do not touch the bytes -/

section
variable {M : Medium} {c : Connection} {q : Fifo UInt8} {w : World} {ans : Answers}
  {next : Prog ProcessResult}

theorem counted_post (h : Responding M c q w) :
    Ensures (countAndReturnOk c.l c.r) w (Post M c) := by
  simp only [countAndReturnOk, ensures_bind, ensures_countRetry, ensures_pure]
  exact Post.ok (Inv.responding q (h.setData ⟨rfl, rfl, rfl, rfl, rfl, rfl, rfl⟩ rfl rfl))

theorem addClient_post (h : Responding M c q w)
    (hnext : ∀ w', Responding M c q w' → Ensures next w' (Post M c)) :
    Ensures (addClient ans c.l c.r next) w (Post M c) :=
  addClient_rule h.slots (fun _ => hnext w h)
    (fun w' _ _ hw _ _ => hnext w' (h.rewatch hw ⟨rfl, rfl, rfl, rfl, rfl, rfl, rfl⟩))
    (fun _ hw => Post.error (Inv.responding q (h.rewatch hw ⟨rfl, rfl, rfl, rfl, rfl, rfl, rfl⟩)))

theorem removeClient_post (h : Responding M c q w)
    (hnext : ∀ w', Responding M c q w' → (w'.data c.l c.r).state = (w.data c.l c.r).state →
      Ensures next w' (Post M c)) :
    Ensures (removeClient c.l c.r next) w (Post M c) :=
  removeClient_rule h.slots (fun _ => hnext w h rfl)
    (fun w' hw => hnext w' (h.rewatch hw ⟨rfl, rfl, rfl, rfl, rfl, rfl, rfl⟩) (by rw [hw.data]))
    (Post.error (Inv.responding q h))

theorem addUpstream_post (h : Responding M c q w)
    (hs : (w.data c.l c.r).state = .forwardResponse)
    (hnext : ∀ w', Responding M c q w' → Ensures next w' (Post M c)) :
    Ensures (addUpstream ans c.l c.r next) w (Post M c) :=
  addUpstream_rule h.slots (h.ne hs) (fun _ => hnext w h)
    (fun w' _ _ hw _ _ => hnext w' (h.rewatch hw ⟨rfl, rfl, rfl, rfl, rfl, rfl, rfl⟩))
    (fun _ hw => Post.error (Inv.responding q (h.rewatch hw ⟨rfl, rfl, rfl, rfl, rfl, rfl, rfl⟩)))

theorem removeUpstream_post (h : Responding M c q w)
    (hs : (w.data c.l c.r).state = .forwardResponse)
    (hnext : ∀ w', Responding M c q w' → Ensures next w' (Post M c)) :
    Ensures (removeUpstream c.l c.r next) w (Post M c) :=
  removeUpstream_rule h.slots (h.ne hs) (fun _ => hnext w h)
    (fun w' hw => hnext w' (h.rewatch hw ⟨rfl, rfl, rfl, rfl, rfl, rfl, rfl⟩))
    (Post.error (Inv.responding q h))

end

/-! ## The request -/

/-- A medium about which nothing is known. -/
def Medium.any : Medium where
  holds := fun _ _ _ => True
  frame := fun _ _ _ _ _ => trivial

/-- A connection behind its request: the response has not begun, and the buffer is empty. -/
structure Requested (c : Connection) (w : World) : Prop
    extends Responding Medium.any c Fifo.empty w where
  state : (w.data c.l c.r).state = .forwardResponse
  buffer : (w.data c.l c.r).buffer.WellFormed
  unread : (w.data c.l c.r).buffer.unread = []
  pipe : (w.data c.l c.r).bytesInPipe = 0

section
variable {M : Medium} {c : Connection} {w : World} {ans : Answers} {finish : Prog ProcessResult}

/-- The client was sent nothing and the upstream server was sent the next bytes of the request. -/
theorem Requesting.wrote (h : Requesting c w) {n : Nat} {bytes : Bytes} {b : TransferRingBuffer}
    {window : Window} (hw : (w.data c.l c.r).buffer.ReadWindow window) (hn : n ≤ window.size)
    (hb : b = (w.data c.l c.r).buffer.endRead n)
    (hbytes : bytes = (w.data c.l c.r).buffer.unread.take n) :
    b.WellFormed ∧ b.readHead ≤ b.writeHead ∧
      c.request = (w.kernel.send c.id1 bytes).sent c.id1 ++ b.unread ∧
      Copied c (w.kernel.send c.id1 bytes) Fifo.empty := by
  subst hb
  refine ⟨endRead_wellFormed h.buffer hw hn, ?_, ?_, ⟨h.copied.taken, ?_⟩⟩
  · have hstart := hw.start
    have hunread := hw.unread h.front
    have hfront := h.front
    unfold TransferRingBuffer.endRead
    split
    · exact Nat.zero_le _
    · show (w.data c.l c.r).buffer.readHead + n ≤ (w.data c.l c.r).buffer.writeHead
      omega
  · have hsent : (w.kernel.send c.id1 bytes).sent c.id1 = w.kernel.sent c.id1 ++ bytes :=
      Function.update_self ..
    rw [hsent, endRead_unread h.buffer hw hn, hbytes, List.append_assoc, List.take_append_drop]
    exact h.request
  · have hsent : (w.kernel.send c.id1 bytes).sent c.id0 = w.kernel.sent c.id0 :=
      Function.update_of_ne c.ids ..
    rw [hsent]
    exact h.copied.sent

/-- The items of the connection and the epoll sets are as before. -/
structure SameItems (c : Connection) (w w' : World) : Prop where
  pollData0 : (w'.data c.l c.r).pollData0 = (w.data c.l c.r).pollData0
  pollData1 : (w'.data c.l c.r).pollData1 = (w.data c.l c.r).pollData1
  epoll : w'.kernel.epoll = w.kernel.epoll

/-- The call waits with the rest of the request, fails, or goes on behind the request. -/
theorem request_rule {Q : ProcessResult → World → Prop} (h : Requesting c w)
    (hs : (w.data c.l c.r).state = .forwardRequest)
    (hstay : ∀ w', Requesting c w' → (w'.data c.l c.r).state = .forwardRequest →
      SameItems c w w' → Q .ok w')
    (hfail : ∀ w', Requesting c w' → Q .removeExecutorError w')
    (hfinish : ∀ w', Requested c w' → SameItems c w w' → Ensures finish w' Q) :
    Ensures (processForwardRequest finish ans c.l c.r) w Q := by
  simp only [processForwardRequest, ensures_bind, ensures_getData]
  cases hstart : (w.data c.l c.r).buffer.startRead with
  | none => exact ensures_pure.mpr (hfail w h)
  | some window =>
    have hwindow := startRead_some h.buffer hstart
    have hall := startRead_size h.buffer h.front hstart
    have hslice := hwindow.slice_eq h.buffer (Nat.le_refl _)
    simp only [ensures_bind]
    refine (write_spec h.server).mono (fun written w1 hwrite => ?_)
    obtain ⟨hcount, rfl⟩ := hwrite
    rw [hslice, List.length_take, Nat.min_eq_left (Nat.le_of_eq hall)] at hcount
    have hle : written.result.toNat ≤ window.size := by omega
    have hbytes : ((w.data c.l c.r).buffer.slice window.start (window.start + window.size)).take
        written.result.toNat = (w.data c.l c.r).buffer.unread.take written.result.toNat := by
      rw [hslice, List.take_take, Nat.min_eq_left hle]
    obtain ⟨hbuffer, hfront, hrequest, hcopied⟩ := h.wrote hwindow hle rfl hbytes
    generalize ((w.data c.l c.r).buffer.slice window.start (window.start + window.size)).take
      written.result.toNat = bytes at hbytes hrequest hcopied
    rw [ensures_ite, ensures_ite]
    refine ⟨fun hneg => ?_, fun hpos => ?_⟩
    · -- Nothing was written.
      have hnil : bytes = [] := by
        have hzero : written.result.toNat = 0 := by omega
        rw [hbytes, hzero, List.take_zero]
      have hsame : Requesting c (w.setKernel (w.kernel.send c.id1 bytes)) := by
        refine ⟨h.slots.setKernel _, h.client, h.server, h.state, h.buffer, h.front, ?_, hcopied,
          h.pipe⟩
        have hsent : (w.kernel.send c.id1 bytes).sent c.id1 = w.kernel.sent c.id1 ++ bytes :=
          Function.update_self ..
        rw [World.setKernel_kernel, hsent, hnil, List.append_nil]
        exact h.request
      simp only [ensures_bind, ensures_countRetry, ensures_pure]
      refine ⟨fun _ => hstay _ ?_ ?_ ⟨?_, ?_, rfl⟩, fun _ => hfail _ hsame⟩
      · exact hsame.congr (hsame.slots.setData rfl rfl)
          (by rw [World.setData_self]; exact ⟨rfl, rfl, rfl, rfl, rfl, rfl, rfl⟩)
          (Kernel.SameStreams.refl _)
      · rw [World.setData_self]
        exact hs
      · rw [World.setData_self]
        rfl
      · rw [World.setData_self]
        rfl
    · simp only [ensures_bind, ensures_clearRetries, ensures_modifyData, ensures_ite,
        ensures_pure, World.setData_self, World.setData_setData, World.setKernel_data]
      refine ⟨fun hfull => ?_, fun _ => ?_⟩
      · have hdone : ((w.data c.l c.r).buffer.endRead written.result.toNat).unread = [] := by
          rw [endRead_unread h.buffer hwindow hle, List.drop_eq_nil_iff]
          omega
        rw [hdone, List.append_nil] at hrequest
        refine hfinish _ ⟨⟨(h.slots.setKernel _).setData rfl rfl, ?_, Or.inl ⟨?_, ?_⟩,
          hrequest.symm, hcopied, trivial⟩, ?_, ?_, ?_, ?_⟩ ⟨?_, ?_, rfl⟩
        all_goals rw [World.setData_self]
        · exact h.client
        · exact h.server
        · exact ⟨Nat.lt_of_le_of_lt (Nat.zero_le _) hbuffer.readHead, Nat.zero_le _⟩
        · exact unread_of_le (Nat.le_refl 0)
        · exact h.pipe
      · refine hstay _ ⟨(h.slots.setKernel _).setData rfl rfl, ?_, ?_, ?_, ?_, ?_, ?_, hcopied,
          ?_⟩ ?_ ⟨?_, ?_, rfl⟩
        all_goals rw [World.setData_self]
        · exact h.client
        · exact h.server
        · exact h.state
        · exact hbuffer
        · exact hfront
        · exact hrequest
        · exact h.pipe
        · exact hs

theorem connect_rule {Q : ProcessResult → World → Prop} (h : Requesting c w)
    (hs : (w.data c.l c.r).state = .waitConnect) {forwardRequest : Prog ProcessResult}
    (hstay : ∀ w', Requesting c w' → (w'.data c.l c.r).state = .waitConnect →
      SameItems c w w' → Q .ok w')
    (hfail : ∀ w', Requesting c w' → Q .removeExecutorError w')
    (hforward : ∀ w', Requesting c w' → (w'.data c.l c.r).state = .forwardRequest →
      SameItems c w w' → Ensures forwardRequest w' Q) :
    Ensures (processWaitConnect forwardRequest ans c.l c.r) w Q := by
  unfold processWaitConnect
  simp only [ensures_ite, ensures_bind, ensures_setState, ensures_countRetry, ensures_pure]
  refine ⟨fun _ => ?_, fun _ => ⟨fun _ => ?_, fun _ => hfail w h⟩⟩
  · refine hforward _ ⟨h.slots.setData rfl rfl, ?_, ?_, Or.inr ?_, ?_, ?_, ?_, h.copied, ?_⟩ ?_
      ⟨?_, ?_, rfl⟩
    all_goals rw [World.setData_self]
    · exact h.client
    · exact h.server
    · exact h.buffer
    · exact h.front
    · exact h.request
    · exact h.pipe
  · refine hstay _ (h.congr (h.slots.setData rfl rfl) ?_ (Kernel.SameStreams.refl _)) ?_
      ⟨?_, ?_, rfl⟩
    all_goals rw [World.setData_self]
    · exact ⟨rfl, rfl, rfl, rfl, rfl, rfl, rfl⟩
    · exact hs

theorem request_post (h : Requesting c w) (hs : (w.data c.l c.r).state = .forwardRequest)
    (hfinish : ∀ w', Requested c w' → Ensures finish w' (Post M c)) :
    Ensures (processForwardRequest finish ans c.l c.r) w (Post M c) :=
  request_rule h hs (fun _ hw _ _ => Post.ok (Inv.requesting hw))
    (fun _ hw => Post.error (N := M) (Inv.requesting hw)) (fun w' hw _ => hfinish w' hw)

theorem connect_post (h : Requesting c w) (hs : (w.data c.l c.r).state = .waitConnect)
    {forwardRequest : Prog ProcessResult}
    (hforward : ∀ w', Requesting c w' → (w'.data c.l c.r).state = .forwardRequest →
      Ensures forwardRequest w' (Post M c)) :
    Ensures (processWaitConnect forwardRequest ans c.l c.r) w (Post M c) :=
  connect_rule h hs (fun _ hw _ _ => Post.ok (Inv.requesting hw))
    (fun _ hw => Post.error (N := M) (Inv.requesting hw)) (fun w' hw hs' _ => hforward w' hw hs')

end

/-- Each handler is called in its own phase. -/
theorem dispatch_post {M : Medium} {c : Connection} {w : World} {h : Handlers} {fd : Int}
    {events : Nat} (hinv : Inv M c w)
    (hwait : Requesting c w → (w.data c.l c.r).state = .waitConnect →
      Ensures h.waitConnect w (Post M c))
    (hforward : Requesting c w → (w.data c.l c.r).state = .forwardRequest →
      Ensures h.forwardRequest w (Post M c))
    (hread : ∀ q, Responding M c q w → (w.data c.l c.r).state = .forwardResponse →
      Ensures h.forwardResponseRead w (Post M c))
    (hwrite : ∀ q, Responding M c q w → Ensures h.forwardResponseWrite w (Post M c)) :
    Ensures (process h c.l c.r fd events) w (Post M c) := by
  unfold process
  simp only [ensures_bind, ensures_getData, ensures_ite, ensures_pure]
  refine ⟨fun hw => ?_, fun _ => ⟨fun hf => ?_, fun _ => ⟨fun hr => ?_, fun _ =>
    ⟨fun hw => ?_, fun _ => Post.error hinv⟩⟩⟩⟩
  · cases hinv with
    | requesting hreq => exact hwait hreq hw.1
    | responding q hresp =>
      rcases hresp.phase with ⟨hs, _⟩ | ⟨hs, _⟩ <;> rw [hw.1] at hs <;> cases hs
  · cases hinv with
    | requesting hreq => exact hforward hreq hf.1
    | responding q hresp =>
      rcases hresp.phase with ⟨hs, _⟩ | ⟨hs, _⟩ <;> rw [hf.1] at hs <;> cases hs
  · cases hinv with
    | requesting hreq => rcases hreq.state with hs | hs <;> rw [hr.1] at hs <;> cases hs
    | responding q hresp => exact hread q hresp hr.1
  · cases hinv with
    | requesting hreq =>
      rcases hw.1 with hn | hn <;> rcases hreq.state with hs | hs <;> rw [hn] at hs <;> cases hs
    | responding q hresp => exact hwrite q hresp

/-! ## Through the ring buffer -/

def Medium.buffer : Medium where
  holds := fun d _ held => d.buffer.WellFormed ∧ d.buffer.unread = held
  frame := fun hd _ _ _ h => by
    rw [hd.buffer]
    exact h

namespace ReadWrite

section
variable {c : Connection} {q : Fifo UInt8} {w : World} {ans : Answers} {e : Executor}

theorem watchResponse_post (h : Requested c w) :
    Ensures (watchResponse ans c.l c.r) w (Post Medium.buffer c) := by
  have hresponding : Responding Medium.buffer c Fifo.empty w :=
    ⟨h.slots, h.client, h.phase, h.request, h.copied, h.buffer, h.unread⟩
  simp only [watchResponse, ensures_bind, ensures_getData, ensures_ite, ensures_pure]
  refine editPollFd_spec.mono (fun res w' hedit => ?_)
  have hafter : Responding Medium.buffer c Fifo.empty w' := by
    rcases hedit with ⟨_, p, k, _, hmod, rfl⟩ | ⟨_, rfl⟩
    · exact hresponding.congr (h.slots.setKernel k) ⟨rfl, rfl, rfl, rfl, rfl, rfl, rfl⟩
        (Kernel.SameStreams.ctlMod hmod)
    · exact hresponding
  exact ⟨fun _ => Post.error (Inv.responding _ hafter), fun _ => Post.ok (Inv.responding _ hafter)⟩

theorem afterWrite_post (h : Responding Medium.buffer c q w) :
    Ensures (ProxyExecutorReadWrite.afterWrite ans c.l c.r) w (Post Medium.buffer c) := by
  simp only [ProxyExecutorReadWrite.afterWrite, ensures_bind, ensures_getData, ensures_ite,
    ensures_pure]
  refine ⟨fun hend => Post.finished h hend.1 ?_, fun _ => ⟨fun hfr => ?_, fun _ => ?_⟩⟩
  · obtain ⟨hwf, hheld⟩ := h.medium
    rw [← hheld, ← startRead_none_iff hwf]
    simpa [readAvailable] using hend.2
  · exact addUpstream_post h hfr (fun w' hw => ensures_pure.mpr (Post.ok (Inv.responding q hw)))
  · exact Post.ok (Inv.responding q h)

/-- The client was sent the first `n` bytes of what the buffer holds. -/
theorem wrote {n : Nat} {bytes : Bytes} {k : Kernel} {d : ExecutorData}
    (h : Responding Medium.buffer c q w) (hbytes : bytes = (w.data c.l c.r).buffer.unread.take n)
    (hk : Kernel.SameStreams (w.kernel.send c.id0 bytes) k)
    (hbuffer : d.buffer.WellFormed ∧ d.buffer.unread = (w.data c.l c.r).buffer.unread.drop n)
    (hstate : d.state = (w.data c.l c.r).state) (hfd0 : d.fd0 = (w.data c.l c.r).fd0)
    (hfd1 : d.fd1 = (w.data c.l c.r).fd1) (h0 : d.pollData0 = (w.data c.l c.r).pollData0)
    (h1 : d.pollData1 = (w.data c.l c.r).pollData1) :
    Responding Medium.buffer c (q.read n) ((w.setKernel k).setData c.l c.r d) := by
  obtain ⟨_, hheld⟩ := h.medium
  rw [hheld] at hbytes hbuffer
  refine ⟨(h.slots.setKernel k).setData h0 h1, ?_, ?_, ?_, (h.copied.send hbytes).congr hk, ?_⟩
  · rw [World.setData_self, hfd0]
    exact (hk.openId? _).trans h.client
  · rw [World.setData_self, hstate, hfd1]
    rcases h.phase with ⟨hfr, hserver⟩ | ⟨how, hended⟩
    · exact Or.inl ⟨hfr, (hk.openId? _).trans hserver⟩
    · refine Or.inr ⟨how, ?_⟩
      show k.ended c.id1 = true
      rw [hk.ended]
      exact hended
  · show k.sent c.id1 = c.request
    have hsent : (w.kernel.send c.id0 bytes).sent c.id1 = w.kernel.sent c.id1 :=
      Function.update_of_ne (Ne.symm c.ids) ..
    rw [hk.sent, hsent]
    exact h.request
  · rw [World.setData_self]
    exact hbuffer

theorem write_post (h : Responding Medium.buffer c q w) :
    Ensures (ProxyExecutorReadWrite.processForwardResponseWrite e ans c.l c.r) w
      (Post Medium.buffer c) := by
  obtain ⟨hwf, hheld⟩ := h.medium
  simp only [ProxyExecutorReadWrite.processForwardResponseWrite, ensures_bind, ensures_getData]
  cases hstart : (w.data c.l c.r).buffer.startRead with
  | none =>
    simp only [ensures_ite, ensures_pure]
    refine ⟨fun how => Post.finished h how ?_, fun _ =>
      removeClient_post h (fun w' hw _ => counted_post hw)⟩
    rw [← hheld]
    exact (startRead_none_iff hwf).mp hstart
  | some window =>
    have hwindow := startRead_some hwf hstart
    have hslice := hwindow.slice_eq hwf (Nat.le_refl _)
    have hlen : (List.take window.size (w.data c.l c.r).buffer.unread).length ≤ window.size := by
      rw [List.length_take]
      exact Nat.min_le_left _ _
    simp only [ensures_bind]
    refine (writeFd0_spec e h.client).mono (fun written w1 hwrite => ?_)
    obtain ⟨hcount, k, rfl, hstreams, _⟩ := hwrite
    rw [hslice] at hcount hstreams
    have hle : written.result.toNat ≤ window.size := by omega
    rw [List.take_take, Nat.min_eq_left hle] at hstreams
    simp only [ensures_ite, ensures_pure, ensures_bind, ensures_clearRetries,
      ensures_modifyData, World.setData_self, World.setData_setData, World.setKernel_data]
    refine ⟨fun hneg => ?_, fun _ => ?_⟩
    · have hsame : Responding Medium.buffer c (q.read 0) (w.setKernel k) := by
        have hzero : written.result.toNat = 0 := by omega
        rw [hzero] at hstreams
        have hset := wrote h rfl hstreams ⟨hwf, rfl⟩ rfl rfl rfl rfl rfl
        exact hset.congr (h.slots.setKernel k)
          (by rw [World.setData_self]; exact ⟨rfl, rfl, rfl, rfl, rfl, rfl, rfl⟩)
          (Kernel.SameStreams.refl _)
      exact ⟨fun _ => addClient_post hsame (fun w' hw => counted_post hw),
        fun _ => Post.error (Inv.responding _ hsame)⟩
    · exact afterWrite_post (wrote h rfl hstreams
        ⟨endRead_wellFormed hwf hwindow hle, endRead_unread hwf hwindow hle⟩ rfl rfl rfl rfl rfl)

/-- The upstream server reported its end. -/
theorem close_post (h : Responding Medium.buffer c q w)
    (hs : (w.data c.l c.r).state = .forwardResponse) (hended : w.kernel.ended c.id1 = true) :
    Ensures (do
      let _ ← closeFd c.l c.r (w.data c.l c.r).fd1
      setState c.l c.r .forwardResponseOnlyWrite
      ProxyExecutorReadWrite.processForwardResponseWrite e ans c.l c.r) w
      (Post Medium.buffer c) := by
  simp only [ensures_bind, ensures_setState]
  refine (closeFd1_spec h.slots (h.ne hs)).mono (fun _ w' hclosed => ?_)
  obtain ⟨p1, hdata⟩ := hclosed.data
  refine write_post (q := q) ⟨hclosed.slots.setData rfl rfl, ?_, Or.inr ⟨?_, ?_⟩, ?_, ⟨?_, ?_⟩, ?_⟩
  · rw [World.setData_self, hdata]
    exact (hclosed.opened _ (Ne.symm (h.ne hs))).trans h.client
  · rw [World.setData_self]
  · rw [World.setData_kernel, hclosed.ended]
    exact hended
  · rw [World.setData_kernel, hclosed.sent]
    exact h.request
  · rw [World.setData_kernel, hclosed.taken]
    exact h.copied.taken
  · rw [World.setData_kernel, hclosed.sent]
    exact h.copied.sent
  · rw [World.setData_self, hdata]
    exact h.medium

/-- Bytes were taken from the upstream server and put into the buffer. -/
theorem filled {window : Window} {bytes : Bytes} {d : ExecutorData}
    (h : Responding Medium.buffer c q w) (hs : (w.data c.l c.r).state = .forwardResponse)
    (hw : (w.data c.l c.r).buffer.WriteWindow window) (hlen : bytes.length ≤ window.size)
    (hbuffer : d.buffer =
      ((w.data c.l c.r).buffer.fill window.start bytes).endWrite bytes.length)
    (hstate : d.state = (w.data c.l c.r).state) (hfd0 : d.fd0 = (w.data c.l c.r).fd0)
    (hfd1 : d.fd1 = (w.data c.l c.r).fd1) (h0 : d.pollData0 = (w.data c.l c.r).pollData0)
    (h1 : d.pollData1 = (w.data c.l c.r).pollData1) :
    Responding Medium.buffer c (q.write bytes)
      ((w.setKernel (w.kernel.take c.id1 bytes)).setData c.l c.r d) := by
  obtain ⟨hwf, hheld⟩ := h.medium
  obtain ⟨hwf', hunread'⟩ := fill_endWrite hwf hw hlen
  refine ⟨(h.slots.setKernel _).setData h0 h1, ?_, Or.inl ⟨?_, ?_⟩, h.request, h.copied.take bytes,
    ?_⟩
  · rw [World.setData_self, hfd0]
    exact h.client
  · rw [World.setData_self, hstate, hs]
  · rw [World.setData_self, hfd1]
    exact h.server hs
  · rw [World.setData_self]
    show d.buffer.WellFormed ∧ d.buffer.unread = q.held ++ bytes
    rw [hbuffer, ← hheld]
    exact ⟨hwf', hunread'⟩

theorem read_post (h : Responding Medium.buffer c q w)
    (hs : (w.data c.l c.r).state = .forwardResponse) :
    Ensures (ProxyExecutorReadWrite.processForwardResponseRead e ans c.l c.r) w
      (Post Medium.buffer c) := by
  obtain ⟨hwf, hheld⟩ := h.medium
  obtain ⟨hwf', hsame, _⟩ := startWrite_snd hwf
  -- Wrapping the write head changes nothing that matters.
  have hwrapped : Responding Medium.buffer c q (w.setData c.l c.r
      { w.data c.l c.r with buffer := (w.data c.l c.r).buffer.startWrite.2 }) := by
    refine ⟨h.slots.setData rfl rfl, ?_, ?_, h.request, h.copied, ?_⟩
    · rw [World.setData_self]
      exact h.client
    · rw [World.setData_self]
      exact h.phase
    · rw [World.setData_self]
      exact ⟨hwf', hsame.trans hheld⟩
  have hs1 : ((w.setData c.l c.r { w.data c.l c.r with
      buffer := (w.data c.l c.r).buffer.startWrite.2 }).data c.l c.r).state =
        .forwardResponse := by
    rw [World.setData_self]
    exact hs
  simp only [ProxyExecutorReadWrite.processForwardResponseRead, ensures_bind, ensures_getData,
    ensures_modifyData]
  cases hwindow : (w.data c.l c.r).buffer.startWrite.1 with
  | none =>
    exact removeUpstream_post hwrapped hs1 (fun w' hw => addClient_post hw
      (fun w'' hw' => counted_post hw'))
  | some window =>
    have hfree := startWrite_some hwf hwindow
    simp only [ensures_bind]
    have hserver : (w.setData c.l c.r { w.data c.l c.r with
        buffer := (w.data c.l c.r).buffer.startWrite.2 }).kernel.openId? (w.data c.l c.r).fd1 =
          some c.id1 := h.server hs
    refine (read_spec hserver).mono (fun received w1 hreceived => ?_)
    rw [ensures_ite, ensures_ite]
    rcases hreceived with ⟨hres, rfl⟩ | ⟨came, _, hbytes, hres, rfl⟩
    · refine ⟨fun _ => ⟨fun h0 => by omega, fun _ => ?_⟩, fun hpos => by omega⟩
      rw [ensures_ite]
      exact ⟨fun _ => counted_post hwrapped,
        fun _ => ensures_pure.mpr (Post.error (Inv.responding q hwrapped))⟩
    · refine ⟨fun hneg => ⟨fun h0 => ?_, fun hne => by omega⟩, fun hpos => ?_⟩
      · have hnil : received.bytes = [] := by
          rw [← List.length_eq_zero_iff]
          omega
        rw [hnil]
        obtain ⟨hended, hflag⟩ := hwrapped.ended hs1
        have hclose := @close_post c q _ ans e hended
          (by rw [World.setKernel_data]; exact hs1) hflag
        rw [World.setKernel_data, World.setData_self] at hclose
        exact hclose
      · have hlen : received.bytes.length ≤ window.size := by
          rw [hbytes, List.length_take]
          exact Nat.min_le_left _ _
        simp only [ensures_bind, ensures_clearRetries, ensures_modifyData, World.setData_self,
          World.setData_setData, World.setKernel_data, World.setData_kernel]
        refine write_post (filled hwrapped hs1 (by rw [World.setData_self]; exact hfree) hlen
          ?_ ?_ ?_ ?_ ?_ ?_)
        all_goals rw [World.setData_self]

/-- One call of `process`. -/
theorem process_post {fd : Int} {events : Nat} (h : Inv Medium.buffer c w) :
    Ensures (ProxyExecutorReadWrite.process e ans c.l c.r fd events) w
      (Post Medium.buffer c) := by
  unfold ProxyExecutorReadWrite.process
  refine dispatch_post h ?_ ?_ ?_ ?_
  · exact fun h hs => connect_post h hs (fun w' hw hs' => request_post hw hs' (fun w'' hw' =>
      watchResponse_post hw'))
  · exact fun h hs => request_post h hs (fun w' hw => watchResponse_post hw)
  · exact fun q h hs => read_post h hs
  · exact fun q h => write_post h

end

end ReadWrite

/-! ## Through the pipe -/

/-- The pipe holds the bytes that `bytesInPipe` counts.  Its write end is used as long as the
upstream server is. -/
def Medium.pipe (c : Connection) : Medium where
  holds := fun d k held => ∃ pipeId, k.openId? d.pipeReadFd = some pipeId ∧ pipeId ≠ c.id1 ∧
    (d.state = .forwardResponse →
      ∃ writeId, k.openId? d.pipeWriteFd = some writeId ∧ k.readEnd writeId = pipeId) ∧
    k.pipes pipeId = held ∧ d.bytesInPipe = held.length
  frame := fun hd htable hpipes hreadEnd h => by
    unfold Kernel.openId? at h ⊢
    rw [hd.pipeReadFd, hd.pipeWriteFd, hd.state, hd.bytesInPipe, htable, hpipes, hreadEnd]
    exact h

namespace Splice

section
variable {c : Connection} {q : Fifo UInt8} {w w' : World} {ans : Answers}

theorem openPipe_spec {l r : Nat} : Ensures (ProxyExecutorSplice.openPipe ans l r) w
    (fun res w' => (res = -1 ∧ w' = w) ∨ (res = 0 ∧ ∃ readFd writeFd k,
      w.kernel.OpenedPipe readFd writeFd k ∧ w' = (w.setKernel k).setData l r
        { w.data l r with pipeReadFd := readFd, pipeWriteFd := writeFd })) := by
  unfold ProxyExecutorSplice.openPipe
  cases ans.pipe2 with
  | none => exact ensures_pure.mpr (Or.inl ⟨rfl, rfl⟩)
  | some fds =>
    obtain ⟨readFd, writeFd⟩ := fds
    simp only [newDescriptor, ensures_ite, ensures_pure, ensures_bind, ensures_getKernel,
      ensures_modifyKernel, ensures_fail, ensures_modifyData, World.setKernel_kernel]
    refine ⟨fun _ => Or.inl ⟨trivial, trivial⟩, fun hpos => ⟨fun hneg => absurd (Or.inl hneg) hpos,
      fun _ => ⟨fun hread => ⟨fun hneg => absurd (Or.inr hneg) hpos, fun _ =>
        ⟨fun hwrite => ?_, fun _ => trivial⟩⟩, fun _ => trivial⟩⟩⟩
    exact Or.inr ⟨trivial, readFd, writeFd, _, Kernel.openedPipe hread hwrite, rfl⟩

/-- The pipe was opened behind the request. -/
theorem opened {readFd writeFd : Int} {k : Kernel} (h : Requested c w)
    (hk : w.kernel.OpenedPipe readFd writeFd k) :
    Responding (Medium.pipe c) c Fifo.empty ((w.setKernel k).setData c.l c.r
      { w.data c.l c.r with pipeReadFd := readFd, pipeWriteFd := writeFd }) := by
  have hserver := h.server h.state
  have hid0 := Kernel.openId?_below h.client
  have hid1 := Kernel.openId?_below hserver
  refine ⟨(h.slots.setKernel k).setData rfl rfl, ?_, Or.inl ⟨?_, ?_⟩, ?_, ⟨?_, ?_⟩, ?_⟩
  · rw [World.setData_self]
    exact hk.others _ _ h.client
  · rw [World.setData_self]
    exact h.state
  · rw [World.setData_self]
    exact hk.others _ _ hserver
  · exact (hk.sent _ hid1).trans h.request
  · exact (hk.taken _ hid1).trans h.copied.taken
  · exact (hk.sent _ hid0).trans h.copied.sent
  · rw [World.setData_self]
    exact ⟨w.kernel.nextId, hk.readFd, Ne.symm (Nat.ne_of_lt hid1),
      fun _ => ⟨w.kernel.nextId + 1, hk.writeFd, hk.readEnd⟩, hk.empty, h.pipe⟩

theorem startResponse_post (h : Requested c w) :
    Ensures (ProxyExecutorSplice.startResponse ans c.l c.r) w (Post (Medium.pipe c) c) := by
  simp only [ProxyExecutorSplice.startResponse, ensures_bind, ensures_getData, ensures_ite,
    ensures_pure]
  refine editPollFd_spec.mono (fun res w1 hedit => ?_)
  have hafter : Requested c w1 := by
    rcases hedit with ⟨_, p, k, _, hmod, rfl⟩ | ⟨_, rfl⟩
    · exact ⟨h.toResponding.congr (h.slots.setKernel k) ⟨rfl, rfl, rfl, rfl, rfl, rfl, rfl⟩
        (Kernel.SameStreams.ctlMod hmod), h.state, h.buffer, h.unread, h.pipe⟩
    · exact h
  have herror : Post (Medium.pipe c) c .removeExecutorError w1 :=
    Post.error (Inv.responding _ hafter.toResponding)
  refine ⟨fun _ => herror, fun _ => openPipe_spec.mono (fun opened w2 hopen => ?_)⟩
  rcases hopen with ⟨hres, rfl⟩ | ⟨hres, readFd, writeFd, k, hk, rfl⟩
  · exact ⟨fun _ => herror, fun hzero => by omega⟩
  · exact ⟨fun hne => absurd hres hne,
      fun _ => Post.ok (Inv.responding _ (Splice.opened hafter hk))⟩

/-- `n` bytes went from the pipe to the client. -/
theorem wrote {n pipeId : Nat} {bytes : Bytes} {d : ExecutorData}
    (h : Responding (Medium.pipe c) c q w)
    (hpipe : w.kernel.openId? (w.data c.l c.r).pipeReadFd = some pipeId)
    (hbytes : bytes = (w.kernel.pipes pipeId).take n) (hn : n ≤ (w.kernel.pipes pipeId).length)
    (hd : SameTransfer { w.data c.l c.r with
      bytesInPipe := (w.data c.l c.r).bytesInPipe - n } d)
    (h0 : d.pollData0 = (w.data c.l c.r).pollData0)
    (h1 : d.pollData1 = (w.data c.l c.r).pollData1) :
    Responding (Medium.pipe c) c (q.read n)
      ((w.setKernel ((w.kernel.send c.id0 bytes).setPipe pipeId
        ((w.kernel.pipes pipeId).drop n))).setData c.l c.r d) := by
  obtain ⟨pipeId', hread, hne, hends, hheld, hcount⟩ := h.medium
  obtain rfl : pipeId' = pipeId := Option.some.inj (hread.symm.trans hpipe)
  rw [hheld] at hbytes
  have hcopied := h.copied.send hbytes
  have hsent : (w.kernel.send c.id0 bytes).sent c.id1 = w.kernel.sent c.id1 :=
    Function.update_of_ne (Ne.symm c.ids) ..
  refine ⟨(h.slots.setKernel _).setData h0 h1, ?_, ?_, hsent.trans h.request,
    ⟨hcopied.taken, hcopied.sent⟩, ?_⟩
  · rw [World.setData_self, hd.fd0]
    exact h.client
  · rw [World.setData_self, hd.state, hd.fd1]
    exact h.phase
  · rw [World.setData_self]
    refine ⟨pipeId', ?_, hne, ?_, ?_, ?_⟩
    · rw [hd.pipeReadFd]
      exact hread
    · rw [hd.state, hd.pipeWriteFd]
      exact hends
    · show Function.update w.kernel.pipes pipeId' ((w.kernel.pipes pipeId').drop n) pipeId' =
        q.held.drop n
      rw [Function.update_self, hheld]
    · rw [hd.bytesInPipe]
      show (w.data c.l c.r).bytesInPipe - n = ((q.held.drop n).length : Int)
      rw [List.length_drop, hcount]
      rw [hheld] at hn
      omega

/-- Bytes came into the pipe from the upstream server. -/
theorem filled {pipeId : Nat} {bytes : Bytes} {d : ExecutorData}
    (h : Responding (Medium.pipe c) c q w) (hs : (w.data c.l c.r).state = .forwardResponse)
    (hpipe : w.kernel.openId? (w.data c.l c.r).pipeReadFd = some pipeId)
    (hd : SameTransfer { w.data c.l c.r with
      bytesInPipe := (w.data c.l c.r).bytesInPipe + bytes.length } d)
    (h0 : d.pollData0 = (w.data c.l c.r).pollData0)
    (h1 : d.pollData1 = (w.data c.l c.r).pollData1) :
    Responding (Medium.pipe c) c (q.write bytes)
      ((w.setKernel ((w.kernel.take c.id1 bytes).setPipe pipeId
        (w.kernel.pipes pipeId ++ bytes))).setData c.l c.r d) := by
  obtain ⟨pipeId', hread, hne, hends, hheld, hcount⟩ := h.medium
  obtain rfl : pipeId' = pipeId := Option.some.inj (hread.symm.trans hpipe)
  have hcopied := h.copied.take bytes
  refine ⟨(h.slots.setKernel _).setData h0 h1, ?_, Or.inl ⟨?_, ?_⟩, h.request,
    ⟨hcopied.taken, hcopied.sent⟩, ?_⟩
  · rw [World.setData_self, hd.fd0]
    exact h.client
  · rw [World.setData_self, hd.state]
    exact hs
  · rw [World.setData_self, hd.fd1]
    exact h.server hs
  · rw [World.setData_self]
    refine ⟨pipeId', ?_, hne, ?_, ?_, ?_⟩
    · rw [hd.pipeReadFd]
      exact hread
    · rw [hd.state, hd.pipeWriteFd]
      exact hends
    · show Function.update w.kernel.pipes pipeId' (w.kernel.pipes pipeId' ++ bytes) pipeId' =
        q.held ++ bytes
      rw [Function.update_self, hheld]
    · rw [hd.bytesInPipe]
      show (w.data c.l c.r).bytesInPipe + bytes.length = ((q.held ++ bytes).length : Int)
      rw [List.length_append, hcount]
      omega

/-- The upstream server is closed when its end was reported. -/
theorem closed (h : Responding (Medium.pipe c) c q w)
    (hs : (w.data c.l c.r).state = .forwardResponse) (hended : w.kernel.ended c.id1 = true)
    (hclosed : ClosedUpstream w c.l c.r w') :
    Responding (Medium.pipe c) c q (w'.setData c.l c.r
      { w'.data c.l c.r with state := .forwardResponseOnlyWrite }) := by
  obtain ⟨p1, hdata⟩ := hclosed.data
  obtain ⟨pipeId, hread, hne, _, hheld, hcount⟩ := h.medium
  have hfd : (w.data c.l c.r).pipeReadFd ≠ (w.data c.l c.r).fd1 := by
    intro heq
    rw [heq, h.server hs] at hread
    exact hne (Option.some.inj hread).symm
  refine ⟨hclosed.slots.setData rfl rfl, ?_, Or.inr ⟨?_, ?_⟩, ?_, ⟨?_, ?_⟩, ?_⟩
  · rw [World.setData_self, hdata]
    exact (hclosed.opened _ (Ne.symm (h.ne hs))).trans h.client
  · rw [World.setData_self]
  · rw [World.setData_kernel, hclosed.ended]
    exact hended
  · rw [World.setData_kernel, hclosed.sent]
    exact h.request
  · rw [World.setData_kernel, hclosed.taken]
    exact h.copied.taken
  · rw [World.setData_kernel, hclosed.sent]
    exact h.copied.sent
  · rw [World.setData_self, hdata, World.setData_kernel]
    refine ⟨pipeId, (hclosed.opened _ hfd).trans hread, hne, fun hfr => (by cases hfr), ?_, hcount⟩
    rw [hclosed.pipes]
    exact hheld

theorem afterWrite_post (h : Responding (Medium.pipe c) c q w) :
    Ensures (ProxyExecutorSplice.afterWrite ans c.l c.r) w (Post (Medium.pipe c) c) := by
  simp only [ProxyExecutorSplice.afterWrite, ensures_bind, ensures_getData, ensures_ite,
    ensures_pure]
  refine ⟨fun _ => Post.error (Inv.responding q h), fun _ => ⟨fun hend =>
    Post.finished h hend.1 ?_, fun hgo => ⟨fun _ =>
      addClient_post h (fun w' hw => counted_post hw), fun hzero => ?_⟩⟩⟩
  · obtain ⟨_, _, _, _, _, hcount⟩ := h.medium
    rw [← List.length_eq_zero_iff]
    have hempty := hend.2
    omega
  · refine removeClient_post h (fun w' hw hsame => addUpstream_post hw ?_
      (fun w'' hw' => counted_post hw'))
    rcases h.phase with ⟨hs, _⟩ | ⟨hs, _⟩
    · rw [hsame]
      exact hs
    · exact absurd ⟨hs, by omega⟩ hgo

/-- Nothing went from the pipe to the client. -/
theorem wroteNothing {pipeId : Nat} {n : Int} (h : Responding (Medium.pipe c) c q w)
    (bytes : Bytes)
    (hpipe : w.kernel.openId? (w.data c.l c.r).pipeReadFd = some pipeId) (hn : n ≤ 0) :
    Responding (Medium.pipe c) c (q.read 0)
      (w.setKernel ((w.kernel.send c.id0 (bytes.take n.toNat)).setPipe pipeId
        ((w.kernel.pipes pipeId).drop n.toNat))) := by
  have hzero : n.toNat = 0 := by omega
  have hd : SameTransfer { w.data c.l c.r with
      bytesInPipe := (w.data c.l c.r).bytesInPipe - (0 : Nat) } (w.data c.l c.r) :=
    ⟨rfl, rfl, rfl, rfl, rfl, (Int.sub_zero _).symm, rfl⟩
  have hset := wrote h hpipe rfl (Nat.zero_le _) hd rfl rfl
  rw [hzero, List.take_zero]
  exact hset.congr (h.slots.setKernel _)
    (by rw [World.setData_self]; exact ⟨rfl, rfl, rfl, rfl, rfl, rfl, rfl⟩)
    (Kernel.SameStreams.refl _)

theorem write_post (h : Responding (Medium.pipe c) c q w) :
    Ensures (ProxyExecutorSplice.processForwardResponseWrite ans c.l c.r) w
      (Post (Medium.pipe c) c) := by
  obtain ⟨pipeId, hpipe, _, _, hheld, hcount⟩ := h.medium
  simp only [ProxyExecutorSplice.processForwardResponseWrite, ensures_bind, ensures_getData]
  rw [ensures_ite, ensures_ite, ensures_bind]
  refine ⟨fun _ => ?_, fun hzero => ⟨fun hs => ensures_pure.mpr (Post.finished h hs ?_),
    fun _ => counted_post h⟩⟩
  · refine (spliceOut_spec hpipe h.client).mono (fun written w1 hwrite => ?_)
    obtain ⟨hresult, rfl⟩ := hwrite
    rw [ensures_ite, ensures_ite, ensures_ite]
    refine ⟨fun hnone => counted_post (wroteNothing h _ hpipe (by omega)), fun _ => ⟨fun hneg => ?_,
      fun hpos => ?_⟩⟩
    · have hsame := wroteNothing h ((w.kernel.pipes pipeId).take
        ProxyExecutorSplice.SPLICE_LENGTH) hpipe (Int.le_of_lt hneg)
      refine ⟨fun _ => ?_, fun _ => ensures_pure.mpr (Post.error (Inv.responding _ hsame))⟩
      simp only [ensures_bind, ensures_countRetry]
      refine addClient_post (hsame.setData ⟨rfl, rfl, rfl, rfl, rfl, rfl, rfl⟩ rfl rfl)
        (fun w' hw => ensures_pure.mpr (Post.ok (Inv.responding _ hw)))
    · have hle : written.result.toNat ≤
          ((w.kernel.pipes pipeId).take ProxyExecutorSplice.SPLICE_LENGTH).length := by omega
      rw [List.length_take] at hle
      have htake : ((w.kernel.pipes pipeId).take ProxyExecutorSplice.SPLICE_LENGTH).take
          written.result.toNat = (w.kernel.pipes pipeId).take written.result.toNat := by
        rw [List.take_take, Nat.min_eq_left (by omega)]
      have hnat : written.result = (written.result.toNat : Int) := by omega
      simp only [ensures_bind, ensures_modifyData]
      refine afterWrite_post (wrote h hpipe htake (by omega) ⟨rfl, rfl, rfl, rfl, rfl, ?_, rfl⟩ rfl
        rfl)
      show (w.data c.l c.r).bytesInPipe - written.result =
        (w.data c.l c.r).bytesInPipe - (written.result.toNat : Int)
      rw [← hnat]
  · rw [← List.length_eq_zero_iff]
    omega

theorem read_post (h : Responding (Medium.pipe c) c q w)
    (hs : (w.data c.l c.r).state = .forwardResponse) :
    Ensures (ProxyExecutorSplice.processForwardResponseRead ans c.l c.r) w
      (Post (Medium.pipe c) c) := by
  obtain ⟨pipeId, hpipe, _, hends, _, _⟩ := h.medium
  obtain ⟨writeId, hwriteFd, hend⟩ := hends hs
  simp only [ProxyExecutorSplice.processForwardResponseRead, ensures_bind, ensures_getData]
  refine (spliceIn_spec (h.server hs) hwriteFd).mono (fun received w1 hreceived => ?_)
  rw [ensures_ite, ensures_ite]
  rcases hreceived with ⟨hres, rfl⟩ | ⟨came, _, _, hres, rfl⟩
  · refine ⟨fun h0 => by omega, fun _ => ⟨fun _ => ?_, fun hpos => by omega⟩⟩
    simp only [ensures_ite, ensures_bind, ensures_countRetry, ensures_pure]
    have hcounted := h.setData (d := { w1.data c.l c.r with
      retryCounter := (w1.data c.l c.r).retryCounter + 1 })
      ⟨rfl, rfl, rfl, rfl, rfl, rfl, rfl⟩ rfl rfl
    refine ⟨fun _ => ⟨fun _ => ?_, fun _ => Post.ok (Inv.responding q hcounted)⟩,
      fun _ => Post.error (Inv.responding q h)⟩
    refine removeUpstream_post hcounted ?_ (fun w' hw =>
      ensures_pure.mpr (Post.ok (Inv.responding q hw)))
    rw [World.setData_self]
    exact hs
  · rw [hend]
    refine ⟨fun h0 => ?_, fun hne => ⟨fun hneg => by omega, fun _ => ?_⟩⟩
    · -- The end of the stream changes no byte.
      have hnil : received.bytes = [] := by
        rw [← List.length_eq_zero_iff]
        omega
      rw [hnil, List.append_nil]
      obtain ⟨hended, hflag⟩ := h.ended hs
      have hsame : ((w.kernel.take c.id1 []).setPipe pipeId (w.kernel.pipes pipeId)) =
          w.kernel.take c.id1 [] := Kernel.setPipe_self (w.kernel.take c.id1 []) pipeId
      rw [hsame]
      simp only [ensures_bind, ensures_setState]
      have hcloseFd := closeFd1_spec hended.slots (hended.ne hs)
      rw [World.setKernel_data] at hcloseFd
      exact hcloseFd.mono (fun _ w' hclosed => write_post (closed hended hs hflag hclosed))
    · simp only [ensures_bind, ensures_modifyData]
      refine write_post (filled h hs hpipe ⟨rfl, rfl, rfl, rfl, rfl, ?_, rfl⟩ rfl rfl)
      show (w.data c.l c.r).bytesInPipe + received.result =
        (w.data c.l c.r).bytesInPipe + (received.bytes.length : Int)
      rw [hres]

/-- One call of `process`. -/
theorem process_post {fd : Int} {events : Nat} (h : Inv (Medium.pipe c) c w) :
    Ensures (ProxyExecutorSplice.process ans c.l c.r fd events) w (Post (Medium.pipe c) c) := by
  unfold ProxyExecutorSplice.process
  refine dispatch_post h ?_ ?_ ?_ ?_
  · exact fun h hs => connect_post h hs (fun w' hw hs' => request_post hw hs' (fun w'' hw' =>
      startResponse_post hw'))
  · exact fun h hs => request_post h hs (fun w' hw => startResponse_post hw)
  · exact fun q h hs => read_post h hs
  · exact fun q h => write_post h

end

end Splice

/-! ## Runs -/

def Relay.medium (x : Relay) (c : Connection) : Medium :=
  match x with
  | .readWrite _ => Medium.buffer
  | .splice => Medium.pipe c

section
variable {M : Medium} {x : Relay} {c : Connection} {w w' : World}

theorem Relay.process_post {ans : Answers} {fd : Int} {events : Nat}
    (h : Inv (x.medium c) c w) :
    Ensures (x.process ans c.l c.r fd events) w (Post (x.medium c) c) := by
  cases x with
  | readWrite e => exact ReadWrite.process_post h
  | splice => exact Splice.process_post h

/-- The rest of the server leaves the streams of the connection alone. -/
theorem Integrity.elsewhere {res : ProcessResult}
    (h : Integrity c res (w.data c.l c.r).state w.kernel)
    (hu : Untouched c.l c.r [c.id0, c.id1] w w') :
    Integrity c res (w'.data c.l c.r).state w'.kernel := by
  have hsent0 := hu.sent c.id0 (by simp)
  have hsent1 := hu.sent c.id1 (by simp)
  have htaken := hu.taken c.id1 (by simp)
  have hended := hu.ended c.id1 (by simp)
  refine ⟨?_, ?_, ?_, ?_⟩
  · rw [hsent1]
    exact h.request
  · rw [hu.data, hsent1]
    exact h.complete
  · rw [hsent0, htaken]
    exact h.response
  · rw [hended, hsent0, htaken]
    exact h.finished

/-- The medium is the connection's own. -/
theorem Relay.medium_elsewhere {held : Bytes} {ids : List Nat}
    (h : (x.medium c).holds (w.data c.l c.r) w.kernel held)
    (hu : Untouched c.l c.r ids w w') :
    (x.medium c).holds (w'.data c.l c.r) w'.kernel held := by
  rw [hu.data]
  cases x with
  | readWrite e => exact h
  | splice =>
    have hopen : ∀ fd, (w.data c.l c.r).Holds fd → w'.kernel.openId? fd = w.kernel.openId? fd := by
      intro fd hfd
      unfold Kernel.openId?
      rw [hu.table fd hfd]
    have hread : (w.data c.l c.r).Holds (w.data c.l c.r).pipeReadFd := Or.inr (Or.inr (Or.inl rfl))
    have hwrite : (w.data c.l c.r).Holds (w.data c.l c.r).pipeWriteFd :=
      Or.inr (Or.inr (Or.inr rfl))
    obtain ⟨pipeId, hpipe, hne, hends, hheld, hcount⟩ := h
    refine ⟨pipeId, (hopen _ hread).trans hpipe, hne, fun hs => ?_, ?_, hcount⟩
    · obtain ⟨writeId, hwriteFd, hend⟩ := hends hs
      exact ⟨writeId, (hopen _ hwrite).trans hwriteFd,
        ((hu.pipes _ hwrite writeId hwriteFd).2).trans hend⟩
    · rw [(hu.pipes _ hread pipeId hpipe).1]
      exact hheld

theorem Relay.inv_elsewhere (h : Inv (x.medium c) c w)
    (hu : Untouched c.l c.r [c.id0, c.id1] w w') : Inv (x.medium c) c w' := by
  have hopen : ∀ fd, (w.data c.l c.r).Holds fd → w'.kernel.openId? fd = w.kernel.openId? fd := by
    intro fd hfd
    unfold Kernel.openId?
    rw [hu.table fd hfd]
  have h0 := hopen _ (Or.inl rfl)
  have h1 := hopen _ (Or.inr (Or.inl rfl))
  have hsent0 := hu.sent c.id0 (by simp)
  have hsent1 := hu.sent c.id1 (by simp)
  have htaken := hu.taken c.id1 (by simp)
  have hended := hu.ended c.id1 (by simp)
  have hcopied : ∀ q, Copied c w.kernel q → Copied c w'.kernel q := fun q hq =>
    ⟨htaken.trans hq.taken, hsent0.trans hq.sent⟩
  cases h with
  | requesting h =>
    refine Inv.requesting ⟨hu.slots, ?_, ?_, ?_, ?_, ?_, ?_, hcopied _ h.copied, ?_⟩
    all_goals rw [hu.data]
    · exact h0.trans h.client
    · exact h1.trans h.server
    · exact h.state
    · exact h.buffer
    · exact h.front
    · rw [hsent1]
      exact h.request
    · exact h.pipe
  | responding q h =>
    refine Inv.responding q ⟨hu.slots, ?_, ?_, hsent1.trans h.request, hcopied q h.copied,
      Relay.medium_elsewhere h.medium hu⟩
    · rw [hu.data]
      exact h0.trans h.client
    · rw [hu.data, h1, hended]
      exact h.phase

/-- A successful `up`. -/
theorem Relay.up_inv {ans : Answers} {w0 : World} (h : Handed w0 c.l c.r c.request c.id0)
    (hbase : w0.kernel.sent c.id0 = c.base) (hup : x.up ans c.l c.r w0 = some (0, w))
    (hserver : w.kernel.openId? (w.data c.l c.r).fd1 = some c.id1) : Inv M c w := by
  have hspec : ProxyExecutor.up ans c.l c.r w0 = some (0, w) := by
    cases x with
    | readWrite e => exact hup
    | splice => exact hup
  obtain ⟨id1, hstarted⟩ := ProxyExecutor.up_spec h 0 w hspec rfl
  obtain rfl : id1 = c.id1 := Option.some.inj (hstarted.server.symm.trans hserver)
  refine Inv.requesting ⟨hstarted.slots, hstarted.client, hserver, hstarted.state.symm, ?_, ?_, ?_,
    ⟨hstarted.taken1, ?_⟩, hstarted.pipe.trans h.pipe⟩
  · rw [hstarted.buffer]
    exact h.buffer
  · rw [hstarted.buffer, h.front]
    exact Nat.zero_le _
  · rw [hstarted.sent1, hstarted.buffer, h.held, List.nil_append]
  · rw [hstarted.sent0, hbase]
    exact (List.append_nil _).symm

end

/-- Whatever the calls of `process` are answered with, the request reaches the upstream server
and the response the client. -/
theorem run_integrity {x : Relay} {c : Connection} {ans : Answers} {w0 w : World} {s : ProxyRun}
    (h : Handed w0 c.l c.r c.request c.id0) (hbase : w0.kernel.sent c.id0 = c.base)
    (hup : x.up ans c.l c.r w0 = some (0, w))
    (hserver : w.kernel.openId? (w.data c.l c.r).fd1 = some c.id1)
    (hrun : ProxyRun.Reach (x.process · c.l c.r) c.l c.r [c.id0, c.id1] (fun _ _ _ _ => True) w s) :
    Integrity c s.last (s.world.data c.l c.r).state s.world.kernel := by
  have hinv : Inv (x.medium c) c w := Relay.up_inv h hbase hup hserver
  refine (hrun.ensures (Inv (x.medium c) c)
    (fun res w' => Integrity c res (w'.data c.l c.r).state w'.kernel) ?_ ?_ ?_ hinv
    (hinv.integrity (by decide))).1
  · exact fun w' ans' fd events hi _ => (Relay.process_post hi).mono (fun res w'' hpost =>
      ⟨hpost.integrity, hpost.inv⟩)
  · exact fun w' w'' res hq hu => hq.elsewhere hu
  · exact fun w' w'' hi hu => Relay.inv_elsewhere hi hu

/-- The connection of `handedWorld`. -/
def sample : Connection where
  l := 0
  r := 0
  id0 := 0
  id1 := 1
  request := getBytes
  base := []
  ids := Nat.zero_ne_one

/-- The request is sent in two parts; two bytes come, one goes, the upstream server ends, and the
other goes. -/
def sampleCalls : List ProxyRun.Call :=
  [ { answers := { write := { count := 2 } }, fd := 6, events := EPOLLOUT },
    { answers := { write := { count := 3 }, pipe2 := some (7, 8) }, fd := 6, events := EPOLLOUT },
    { answers := { spliceIn := { bytes := some [1, 2] }, spliceOut := { count := 1 } }
      fd := 6
      events := EPOLLIN },
    { answers := { spliceIn := { bytes := some [] }, spliceOut := { count := 1 } }
      fd := 6
      events := EPOLLIN } ]

theorem run_integrity_sample :
    ∃ w s, ProxyRun.session (Relay.splice.up · 0 0) (Relay.splice.process · 0 0)
      (fun _ _ _ _ => True) { socket := 6 } sampleCalls (handedWorld getBytes) = some (w, s) ∧
      s.last = .removeExecutorOk ∧
      Integrity sample .removeExecutorOk (s.world.data 0 0).state s.world.kernel := by
  have hrun : (ProxyRun.session (Relay.splice.up · 0 0) (Relay.splice.process · 0 0)
      (fun _ _ _ _ => True) { socket := 6 } sampleCalls (handedWorld getBytes)).map (fun x =>
        (x.2.last, x.1.kernel.openId? (x.1.data 0 0).fd1)) =
      some (.removeExecutorOk, some 1) := by
    decide +kernel
  obtain ⟨⟨w, s⟩, hsession, hshape⟩ := Option.map_eq_some_iff.mp hrun
  obtain ⟨hup, hreach⟩ := ProxyRun.session_some 0 0 [0, 1] hsession
  simp only [Prod.mk.injEq] at hshape
  obtain ⟨hlast, hserver⟩ := hshape
  refine ⟨w, s, hsession, hlast, ?_⟩
  have hbase : (handedWorld getBytes).kernel.sent 0 = [] := by decide +kernel
  have h := run_integrity (x := .splice) (c := sample) handedWorld_handed hbase hup hserver hreach
  rw [hlast] at h
  exact h

end ProxyRelay
end EpollHttp
