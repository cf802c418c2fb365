import EpollHttp.PollLoop.Run

/-
The calls of `process` that an executor has a handler for.

`process` compares the state, the descriptor and the events.  A call that fits nothing is an
invalid one: the executor asks for its removal and does nothing else.
-/

namespace EpollHttp

open Program

namespace FileExecutor

def Accepts (d : ExecutorData) (fd : Int) (events : Nat) : Prop :=
  (d.state = .sendHeaders ∨ d.state = .sendOnlyHeaders ∨ d.state = .sendFile) ∧ fd = d.fd0 ∧
    hasEvent events EPOLLOUT

end FileExecutor

namespace ProxyExecutor

def Accepts (d : ExecutorData) (fd : Int) (events : Nat) : Prop :=
  ((d.state = .waitConnect ∨ d.state = .forwardRequest) ∧ fd = d.fd1 ∧ hasEvent events EPOLLOUT) ∨
    (d.state = .forwardResponse ∧ fd = d.fd1 ∧ hasEvent events EPOLLIN) ∨
      ((d.state = .forwardResponse ∨ d.state = .forwardResponseOnlyWrite) ∧ fd = d.fd0 ∧
        hasEvent events EPOLLOUT)

def Handlers.list (h : Handlers) : List (Prog ProcessResult) :=
  [h.waitConnect, h.forwardRequest, h.forwardResponseRead, h.forwardResponseWrite]

end ProxyExecutor

namespace Executor

/-- The executor serves a client. -/
def Serves : Executor → Prop
  | .newFd => False
  | .server => False
  | .sslServer => False
  | _ => True

instance : DecidablePred Serves
  | .newFd => .isFalse id
  | .server => .isFalse id
  | .sslServer => .isFalse id
  | .request => .isTrue trivial
  | .file => .isTrue trivial
  | .proxySplice => .isTrue trivial
  | .proxyReadWrite => .isTrue trivial
  | .sslRequest => .isTrue trivial
  | .sslFile => .isTrue trivial
  | .sslProxy => .isTrue trivial

/-- The call is not an invalid one. -/
def Accepts (e : Executor) (d : ExecutorData) (fd : Int) (events : Nat) : Prop :=
  match e with
  | .request => d.state = .readRequest ∧ fd = d.fd0 ∧ hasEvent events EPOLLIN
  | .sslRequest =>
    (d.state = .sslHandshake ∧ fd = d.fd0) ∨
      (d.state = .readRequest ∧ fd = d.fd0 ∧ events = EPOLLIN)
  | .file => FileExecutor.Accepts d fd events
  | .sslFile =>
    (d.state = .sendFile ∧ fd = d.fd0 ∧ (hasEvent events EPOLLIN ∨ hasEvent events EPOLLOUT)) ∨
      FileExecutor.Accepts d fd events
  | .proxySplice => ProxyExecutor.Accepts d fd events
  | .proxyReadWrite => ProxyExecutor.Accepts d fd events
  | .sslProxy => ProxyExecutor.Accepts d fd events
  | _ => True

/-- What `process` calls. -/
def handlers (e : Executor) (ans : Answers) (l r : Nat) : List (Prog ProcessResult) :=
  match e with
  | .request => [RequestExecutor.processReadRequest .request .file .proxy ans l r]
  | .sslRequest =>
    [SslRequestExecutor.processHandshake ans l r,
      RequestExecutor.processReadRequest .sslRequest .sslFile .sslProxy ans l r]
  | .file => [FileExecutor.processSendHeaders .file ans l r, FileExecutor.processSendFile ans l r]
  | .sslFile =>
    [SslFileExecutor.processSendFile ans l r, FileExecutor.processSendHeaders .sslFile ans l r,
      FileExecutor.processSendFile ans l r]
  | .proxySplice => (ProxyExecutorSplice.handlers ans l r).list
  | .proxyReadWrite => (ProxyExecutorReadWrite.handlers .proxyReadWrite ans l r).list
  | .sslProxy => (ProxyExecutorReadWrite.handlers .sslProxy ans l r).list
  | _ => []

end Executor

section
variable {ans : Answers} {w : World} {l r : Nat} {fd : Int} {events : Nat} {e : Executor}

namespace FileExecutor

theorem process_accepted (h : Accepts (w.data l r) fd events) :
    process e ans l r fd events w = processSendHeaders e ans l r w ∨
      process e ans l r fd events w = processSendFile ans l r w := by
  obtain ⟨hstate, hfd, hout⟩ := h
  unfold process
  rw [getData_bind]
  split
  · exact Or.inl rfl
  · rename_i hheaders
    have hfile : (w.data l r).state = .sendFile := by
      rcases hstate with h1 | h1 | h1
      · exact absurd ⟨Or.inl h1, hfd, hout⟩ hheaders
      · exact absurd ⟨Or.inr h1, hfd, hout⟩ hheaders
      · exact h1
    rw [if_pos ⟨hfile, hfd, hout⟩]
    exact Or.inr rfl

theorem process_invalid (h : ¬ Accepts (w.data l r) fd events) :
    process e ans l r fd events w = some (.removeExecutorError, w) := by
  unfold Accepts at h
  unfold process
  rw [getData_bind, if_neg (by tauto), if_neg (by tauto)]
  rfl

end FileExecutor

namespace ProxyExecutor

theorem process_accepted {handlers : Handlers} (h : Accepts (w.data l r) fd events) :
    ∃ handler ∈ handlers.list, process handlers l r fd events w = handler w := by
  unfold Accepts at h
  unfold process Handlers.list
  rw [getData_bind]
  split
  · exact ⟨_, List.mem_cons_self, rfl⟩
  split
  · exact ⟨handlers.forwardRequest, by simp, rfl⟩
  split
  · exact ⟨handlers.forwardResponseRead, by simp, rfl⟩
  · rw [if_pos (by tauto)]
    exact ⟨handlers.forwardResponseWrite, by simp, rfl⟩

theorem process_invalid {handlers : Handlers} (h : ¬ Accepts (w.data l r) fd events) :
    process handlers l r fd events w = some (.removeExecutorError, w) := by
  unfold Accepts at h
  unfold process
  rw [getData_bind, if_neg (by tauto), if_neg (by tauto), if_neg (by tauto), if_neg (by tauto)]
  rfl

end ProxyExecutor

namespace Executor

/-- A call that is accepted is a call of a handler. -/
theorem process_accepted (he : e.Serves) (h : e.Accepts (w.data l r) fd events) :
    ∃ handler ∈ e.handlers ans l r, e.process ans l r fd events w = handler w := by
  cases e with
  | newFd => exact he.elim
  | server => exact he.elim
  | sslServer => exact he.elim
  | request => exact ⟨_, List.mem_cons_self, congrFun (if_pos h) w⟩
  | sslRequest =>
    unfold process SslRequestExecutor.process
    dsimp only
    rw [getData_bind]
    split
    · exact ⟨_, List.mem_cons_self, rfl⟩
    · rename_i hhandshake
      rw [if_pos (h.resolve_left hhandshake)]
      exact ⟨_, List.mem_cons_of_mem _ List.mem_cons_self, rfl⟩
  | file =>
    rcases FileExecutor.process_accepted h with heq | heq
    · exact ⟨_, List.mem_cons_self, heq⟩
    · exact ⟨_, List.mem_cons_of_mem _ List.mem_cons_self, heq⟩
  | sslFile =>
    unfold process SslFileExecutor.process
    dsimp only
    rw [getData_bind]
    split
    · exact ⟨_, List.mem_cons_self, rfl⟩
    · rename_i hfile
      rcases FileExecutor.process_accepted (h.resolve_left hfile) with heq | heq
      · exact ⟨_, List.mem_cons_of_mem _ List.mem_cons_self, heq⟩
      · exact ⟨_, List.mem_cons_of_mem _ (List.mem_cons_of_mem _ List.mem_cons_self), heq⟩
  | proxySplice => exact ProxyExecutor.process_accepted h
  | proxyReadWrite => exact ProxyExecutor.process_accepted h
  | sslProxy => exact ProxyExecutor.process_accepted h

/-- A call that is not accepted asks for the removal at once. -/
theorem process_invalid (h : ¬ e.Accepts (w.data l r) fd events) :
    e.process ans l r fd events w = some (.removeExecutorError, w) := by
  cases e with
  | newFd => exact absurd trivial h
  | server => exact absurd trivial h
  | sslServer => exact absurd trivial h
  | request => exact congrFun (if_neg h) w
  | sslRequest =>
    obtain ⟨hhandshake, hread⟩ := not_or.mp h
    unfold process SslRequestExecutor.process
    dsimp only
    rw [getData_bind, if_neg hhandshake, if_neg hread]
    rfl
  | file => exact FileExecutor.process_invalid h
  | sslFile =>
    obtain ⟨hfile, hrest⟩ := not_or.mp h
    unfold process SslFileExecutor.process
    dsimp only
    rw [getData_bind, if_neg hfile]
    exact FileExecutor.process_invalid hrest
  | proxySplice => exact ProxyExecutor.process_invalid h
  | proxyReadWrite => exact ProxyExecutor.process_invalid h
  | sslProxy => exact ProxyExecutor.process_invalid h

end Executor

end

end EpollHttp
