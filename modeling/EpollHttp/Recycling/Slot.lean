import EpollHttp.Recycling.Loop
import EpollHttp.PollLoop.Destroy
import EpollHttp.Lib.Run

/-
A place of the storage that was used before, and one that never was.

What is seen of a step is the result of the call of `process`, the verdict of the parser with what
the request then answers, and the world that the step leaves: the kernel, with the bytes that were
sent and the registrations, and for every connection its fields, the bytes that it has not read and
what its request answers.  The bytes that an earlier connection left in memory are not seen.
-/

namespace EpollHttp

open Program

/-! ## What is seen -/

/-- What a request answers. -/
structure Lookups where
  getUrl : Option Bytes
  getHeaderValue : Bytes → Option Bytes
  getIfModifiedSince : (Bytes → Option Int) → Int
  isUrlPrefix : Bytes → Bool

def HttpRequest.lookups (r : HttpRequest) : Lookups where
  getUrl := r.getUrl
  getHeaderValue := r.getHeaderValue
  getIfModifiedSince := r.getIfModifiedSince
  isUrlPrefix := r.isUrlPrefix

/-- The fields without the memory of the buffer and of the request, and what a client shows of
these. -/
structure ExecutorView where
  fields : ExecutorData
  client : Option (Bytes × Lookups)

def ExecutorData.view (d : ExecutorData) : ExecutorView where
  fields := { d with buffer := { buf := [] }, request := {} }
  client := d.pExecutor.bind (fun e =>
    if e.Serves then some (d.buffer.unread, d.request.lookups) else none)

structure WorldView where
  kernel : Kernel
  loops : Nat → PollLoop
  executors : Nat → Nat → ExecutorView

def World.view (w : World) : WorldView where
  kernel := w.kernel
  loops := fun l => { w.loops l with execDatas := .empty }
  executors := fun l r => (w.data l r).view

/-- What the parser says to the bytes that `process_readRequest` gives it. -/
def verdict (e : Executor) (ans : Answers) (l r : Nat) :
    Prog (Option (ParseResult × Lookups)) := do
  let received ← RequestExecutor.readRequest e ans l r
  if received ≠ 0 then return none
  else do
    let x ← RequestExecutor.parsed l r
    return x.map (fun x => (x.1, x.2.lookups))

/-- `process` calls `process_readRequest`. -/
def Executor.Parses (e : Executor) (d : ExecutorData) (fd : Int) (events : Nat) : Prop :=
  d.state = .readRequest ∧ fd = d.fd0 ∧
    ((e = .request ∧ hasEvent events EPOLLIN = true) ∨ (e = .sslRequest ∧ events = EPOLLIN))

instance (e : Executor) (d : ExecutorData) (fd : Int) (events : Nat) :
    Decidable (e.Parses d fd events) := inferInstanceAs (Decidable (_ ∧ _))

structure CallView where
  result : Option ProcessResult
  verdict : Option (Option (ParseResult × Lookups))

def Executor.callView (e : Executor) (ans : Answers) (l r : Nat) (fd : Int) (events : Nat)
    (w : World) : CallView where
  result := (e.process ans l r fd events w).map Prod.fst
  verdict :=
    if e.Parses (w.data l r) fd events then (EpollHttp.verdict e ans l r w).map Prod.fst else none

/-- The call of `process` that an action leads to. -/
def World.callView (w : World) : Action → Option CallView
  | .continue l ans =>
    match (w.loops l).phase with
    | .draining _ (event :: _) =>
      match w.delivery l event with
      | .processed r fd =>
        (w.data l r).pExecutor.map (fun e => e.callView ans l r fd event.events w)
      | _ => none
    | _ => none
  | _ => none

structure StepView where
  call : Option CallView
  left : WorldView

def World.trace (w : World) (actions : List Action) : List StepView :=
  Run.trace World.step (fun w a w' => { call := w.callView a, left := w'.view }) w actions

/-- From the call on that sets a connection up. -/
def World.createdTrace (w : World) (ans : Answers) (l : Nat) (fd : Int) (execType : ExecutorType)
    (actions : List Action) : Option (Int × WorldView × List StepView) :=
  (createRequestExecutorInternal ans l fd execType w).map (fun x =>
    (x.1, x.2.view, x.2.trace actions))

/-! ## Twin worlds show the same -/

theorem HttpRequest.Alike.lookups {r r' : HttpRequest} (h : r.Alike r') :
    r'.lookups = r.lookups := by
  unfold HttpRequest.lookups
  rw [h.getUrl, funext h.getHeaderValue, funext h.getIfModifiedSince, funext h.isUrlPrefix]

theorem TransferRingBuffer.Alike.unread {b b' : TransferRingBuffer} (h : b.Alike b') :
    b'.unread = b.unread := by
  rcases h with rfl | h
  · rfl
  · exact h.unread

section
variable {K : Scope} {ans : Answers} {w w' : World} {l r : Nat} {d d' : ExecutorData}

theorem ExecutorData.Alike.view (h : d.Alike (Scope.serving l r d.pExecutor) d') :
    d'.view = d.view := by
  cases h with
  | intro buffer request h =>
    unfold ExecutorData.view
    dsimp only
    cases hexec : d.pExecutor with
    | none => rfl
    | some e =>
      by_cases he : e.Serves
      · obtain ⟨hbuffer, hrequest⟩ := h ⟨e, hexec, he⟩
        rw [hbuffer.unread, hrequest.lookups]
      · simp only [Option.bind_some, if_neg he]

theorem Twins.view (h : Twins Scope.serving w w') : w'.view = w.view := by
  have hloops : ∀ l, ({ w'.loops l with execDatas := .empty } : PollLoop) =
      { w.loops l with execDatas := .empty } := by
    intro l
    have hloop := h.loops l
    generalize w'.loops l = y at hloop
    cases hloop with
    | intro execDatas _ => rfl
  unfold World.view
  rw [h.kernel, funext hloops, funext (fun l => funext (fun r => (h.data l r).view))]

theorem verdict_coupled (hk : ∀ exec, K l r exec) (e : Executor) :
    Coupled (Twins K) (Twins K) (verdict e ans l r) (verdict e ans l r) := by
  refine (RequestExecutor.readRequest_coupled hk e).bind (fun received => .ite .pure ?_)
  refine RequestExecutor.parsed_coupled hk .pure (fun result q q' hq => ?_)
  show Coupled _ _ (pure (some (result, q.lookups))) (pure (some (result, q'.lookups)))
  rw [hq.lookups]
  exact .pure

theorem Twins.parses (h : Twins K w w') (e : Executor) (l r : Nat) (fd : Int) (events : Nat) :
    e.Parses (w'.data l r) fd events ↔ e.Parses (w.data l r) fd events := by
  have hdata := h.data l r
  generalize w'.data l r = d at hdata
  cases hdata with
  | intro buffer request _ => exact Iff.rfl

/-- A call of `process` has the same result. -/
theorem Executor.process_result (h : Twins Scope.serving w w') {e : Executor}
    (hexec : (w.data l r).pExecutor = some e) (fd : Int) (events : Nat) :
    (e.process ans l r fd events w').map Prod.fst =
      (e.process ans l r fd events w).map Prod.fst := by
  have hserver : ∀ execType, (serverProcess execType ans l r fd w').map Prod.fst =
      (serverProcess execType ans l r fd w).map Prod.fst :=
    fun execType => (serverProcess_coupled execType fd w w' h).result
  have hclient : e.Serves → (e.process ans l r fd events w').map Prod.fst =
      (e.process ans l r fd events w).map Prod.fst := by
    intro he
    have hprocess : Coupled (Twins (Scope.serving.plus l r)) (Twins (Scope.serving.plus l r))
        (e.process ans l r fd events) (e.process ans l r fd events) :=
      Executor.process_coupled he (Scope.serving.plus_self l r) fd events
    exact (hprocess w w' (h.plus ⟨e, hexec, he⟩)).result
  cases e with
  | newFd => rfl
  | server => exact hserver .request
  | sslServer => exact hserver .requestSsl
  | _ => exact hclient trivial

theorem Executor.Parses.serves {e : Executor} {fd : Int} {events : Nat}
    (h : e.Parses d fd events) : e.Serves := by
  obtain ⟨_, _, ⟨rfl, _⟩ | ⟨rfl, _⟩⟩ := h
  · trivial
  · trivial

theorem Executor.callView_eq (h : Twins Scope.serving w w') {e : Executor}
    (hexec : (w.data l r).pExecutor = some e) (fd : Int) (events : Nat) :
    e.callView ans l r fd events w' = e.callView ans l r fd events w := by
  have hverdict : e.Parses (w.data l r) fd events →
      (verdict e ans l r w').map Prod.fst = (verdict e ans l r w).map Prod.fst := by
    intro hparses
    have hcoupled : Coupled (Twins (Scope.serving.plus l r)) (Twins (Scope.serving.plus l r))
        (verdict e ans l r) (verdict e ans l r) :=
      verdict_coupled (Scope.serving.plus_self l r) e
    exact (hcoupled w w' (h.plus ⟨e, hexec, hparses.serves⟩)).result
  unfold Executor.callView
  rw [Executor.process_result h hexec]
  by_cases hparses : e.Parses (w.data l r) fd events
  · rw [if_pos hparses, if_pos ((h.parses ..).mpr hparses), hverdict hparses]
  · rw [if_neg hparses, if_neg (fun h' => hparses ((h.parses ..).mp h'))]

theorem Twins.phase (h : Twins K w w') (l : Nat) : (w'.loops l).phase = (w.loops l).phase := by
  have hloop := h.loops l
  generalize w'.loops l = y at hloop
  cases hloop with
  | intro execDatas _ => rfl

theorem Twins.callView (h : Twins Scope.serving w w') (a : Action) :
    w'.callView a = w.callView a := by
  cases a with
  | «continue» l ans =>
    unfold World.callView
    dsimp only
    rw [h.phase]
    cases (w.loops l).phase with
    | draining curMillis pending =>
      cases pending with
      | nil => rfl
      | cons event pending =>
        dsimp only
        rw [h.delivery]
        cases w.delivery l event with
        | processed r fd =>
          dsimp only
          rw [h.exec]
          cases hexec : (w.data l r).pExecutor with
          | none => rfl
          | some e => exact congrArg some (Executor.callView_eq h hexec fd event.events)
        | _ => rfl
    | _ => rfl
  | _ => rfl

/-- Twin worlds take the same actions and show the same of them. -/
theorem Twins.trace (h : Twins Scope.serving w w') (actions : List Action) :
    w'.trace actions = w.trace actions := by
  refine (Run.trace_eq (fun w w' a h => ?_) h actions).symm
  have hperform := a.perform_coupled w w' h
  have hcall := h.callView a
  unfold World.step
  generalize a.perform w = x at hperform
  generalize a.perform w' = x' at hperform
  cases hperform with
  | failed => exact .none
  | returned u t t' ht =>
    refine .some ⟨ht, ?_⟩
    rw [hcall, ht.view]

theorem Twins.createdTrace (h : Twins Scope.serving w w') (fd : Int) (execType : ExecutorType)
    (actions : List Action) :
    w'.createdTrace ans l fd execType actions = w.createdTrace ans l fd execType actions := by
  have hcreate : Coupled (Twins Scope.serving) (Twins Scope.serving)
      (createRequestExecutorInternal ans l fd execType)
      (createRequestExecutorInternal ans l fd execType) :=
    createRequestExecutorInternal_coupled fd execType
  have hcreated := hcreate w w' h
  unfold World.createdTrace
  generalize createRequestExecutorInternal ans l fd execType w = x at hcreated
  generalize createRequestExecutorInternal ans l fd execType w' = x' at hcreated
  cases hcreated with
  | failed => rfl
  | returned result t t' ht =>
    rw [Option.map_some, Option.map_some, ht.view, ht.trace]

/-! ## A place that was used before -/

theorem Twins.refl (K : Scope) (w : World) : Twins K w w :=
  ⟨rfl, rfl, fun l => .intro (w.loops l).execDatas
    ⟨rfl, rfl, rfl, fun _ => rfl, fun _ => .refl _ _⟩⟩

theorem World.setData_data (w : World) (l r : Nat) : w.setData l r (w.data l r) = w := by
  unfold World.setData World.setLoop World.data BlockStorage.assign
  simp

/-- What a removal leaves of the data. -/
theorem removePollFd_cleared {fd : Int} : Ensures (removePollFd l r fd) w (fun _ w' =>
    (w'.data l r).cleared = (w.data l r).cleared) := by
  refine removePollFd_spec.mono (fun res w' hremove => ?_)
  rcases hremove with ⟨_, p, hremoved⟩ | ⟨_, rfl, _⟩
  · obtain ⟨_, _, _, rfl⟩ := hremoved
    rw [World.rewatch_data_self, dropPollData_cleared]
  · rfl

theorem removeExecutorData_cleared : Ensures (removeExecutorData l r) w (fun _ w' =>
    w'.data l r = (w.data l r).cleared) := by
  have hunwatch : ∀ (c : Prop) [Decidable c] (fd : Int) (w1 : World),
      (w1.data l r).cleared = (w.data l r).cleared →
      Ensures (when c (do let _ ← removePollFd l r fd)) w1 (fun _ w2 =>
        (w2.data l r).cleared = (w.data l r).cleared) := by
    intro c _ fd w1 h1
    simp only [ensures_when, ensures_bind, ensures_pure]
    exact ⟨fun _ => removePollFd_cleared.mono (fun _ _ h2 => h2.trans h1), fun _ => h1⟩
  simp only [removeExecutorData, ensures_bind, ensures_getData]
  refine (hunwatch _ _ w rfl).mono (fun _ w1 h1 => (hunwatch _ _ w1 h1).mono (fun _ w2 h2 => ?_))
  rw [ensures_down, freeExecData, ensures_modifyLoop,
    World.setLoop_data _ _ (fun q => BlockStorage.free_fields _ r q), World.setData_self]
  exact h2

/-- Data whose descriptors are closed is new but for the buffer and the request. -/
theorem ExecutorData.cleared_eq (hfds : ∀ place, d.fdAt place = -1 ∨ 0 < d.fdAt place) :
    d.cleared = { buffer := d.buffer.clear, request := d.request } := by
  have hfd0 : (if 0 < d.fd0 then -1 else d.fd0) = -1 := (d.cleared_holding hfds .fd0).1
  have hfd1 : (if 0 < d.fd1 then -1 else d.fd1) = -1 := (d.cleared_holding hfds .fd1).1
  have hread : (if 0 < d.pipeReadFd then -1 else d.pipeReadFd) = -1 :=
    (d.cleared_holding hfds .pipeRead).1
  have hwrite : (if 0 < d.pipeWriteFd then -1 else d.pipeWriteFd) = -1 :=
    (d.cleared_holding hfds .pipeWrite).1
  unfold ExecutorData.cleared
  rw [hfd0, hfd1, hread, hwrite]

/-- A place that was cleared is like one that was never used. -/
theorem twins_of_cleared {buffer : TransferRingBuffer} {request : HttpRequest}
    (hdata : w.data l r = { buffer := buffer, request := request }) :
    Twins Scope.serving w (w.setData l r {}) := by
  have hset : Twins Scope.serving (w.setData l r (w.data l r)) (w.setData l r {}) := by
    refine (Twins.refl Scope.serving w).setData ?_ (fun _ _ _ _ hk => hk)
    rw [hdata]
    refine .intro _ _ (fun hserving => ?_)
    obtain ⟨e, he, _⟩ := hserving
    cases he
  rwa [World.setData_data] at hset

end

/-- Whatever connection used a place before: once it was removed, everything that is seen of the
server from then on is as with data that was never used, in every run and for every call that sets
a new connection up. -/
theorem recycled_like_new {w w1 w2 : World} {l r : Nat}
    (hfds : ∀ place, w.fdAt l r place = -1 ∨ 0 < w.fdAt l r place)
    (hremoved : removeExecutorData l r w = some (⟨⟩, w1)) (hlater : w2.data l r = w1.data l r)
    (ans : Answers) (fd : Int) (execType : ExecutorType) (actions : List Action) :
    w2.createdTrace ans l fd execType actions =
        (w2.setData l r {}).createdTrace ans l fd execType actions ∧
      w2.trace actions = (w2.setData l r {}).trace actions := by
  have hcleared : w1.data l r = (w.data l r).cleared :=
    removeExecutorData_cleared ⟨⟩ w1 hremoved
  have htwins : Twins Scope.serving w2 (w2.setData l r {}) :=
    twins_of_cleared ((hlater.trans hcleared).trans (ExecutorData.cleared_eq hfds))
  exact ⟨(htwins.createdTrace fd execType actions).symm, (htwins.trace actions).symm⟩

def fileClientRequest : Bytes :=
  [71, 69, 84, 32, 47, 97, 32, 72, 84, 84, 80, 13, 10, 65, 58, 32, 98, 13, 10, 13, 10]

/-- A client is sent a file. -/
def fileClient : List Action :=
  [.init 0 { epollCreate := 3, eventfd := 4 },
    .listenPort 0 .server { socket := 5 },
    .epollWait 0 [(5, EPOLLIN)] 0,
    .continue 0 { accept4 := 6 },
    .continue 0 {},
    .epollWait 0 [(6, EPOLLIN)] 0,
    .continue 0 { read := { bytes := some fileClientRequest }
                  openFile := 7
                  fstat := some (2, 0) }]

/-- A client asks for `/bc` and is sent a file. -/
def nextRequest (fd : Int) : List Action :=
  [.epollWait 0 [(fd, EPOLLIN)] 0,
    .continue 0 { read := { bytes := some (HttpResponse.ascii "GET /bc HTTP\r\nHost: b\r\n\r\n") }
                  openFile := 10
                  fstat := some (3, 0) },
    .continue 0 {}]

/-- Another client comes. -/
def nextClient : List Action :=
  [.continue 0 {}, .epollWait 0 [(5, EPOLLIN)] 0, .continue 0 { accept4 := 9 }, .continue 0 {}] ++
    nextRequest 9

/-- The place of the client that was sent a file is handed to the next one, whose request is
finished as well. -/
theorem recycled_like_new_nextClient : ∃ w w1,
    Run.run World.step { parameters := { rootFolder := [47] } } fileClient = some w ∧
      (w.data 0 2).request.getUrl = some [47, 97] ∧ removeExecutorData 0 2 w = some (⟨⟩, w1) ∧
      (∃ w2, Run.run World.step (w1.setKernel (w1.kernel.opened 8 true)) nextClient = some w2 ∧
        (w2.data 0 2).fd0 = 9 ∧ (w2.data 0 2).request.getUrl = some [47, 98, 99]) ∧
      (w1.setKernel (w1.kernel.opened 8 true)).trace nextClient =
        ((w1.setKernel (w1.kernel.opened 8 true)).setData 0 2 {}).trace nextClient ∧
      (w1.setKernel (w1.kernel.opened 8 true)).createdTrace {} 0 8 .request
          (.continue 0 {} :: nextRequest 8) =
        ((w1.setKernel (w1.kernel.opened 8 true)).setData 0 2 {}).createdTrace {} 0 8 .request
          (.continue 0 {} :: nextRequest 8) := by
  have hrun : ((Run.run World.step { parameters := { rootFolder := [47] } } fileClient).bind
      (fun w => (removeExecutorData 0 2 w).bind (fun x =>
        (Run.run World.step (x.2.setKernel (x.2.kernel.opened 8 true)) nextClient).map
          (fun w2 => ((w.data 0 2).request.getUrl,
            [Place.fd0, .fd1, .pipeRead, .pipeWrite].map (w.fdAt 0 2), (w2.data 0 2).fd0,
            (w2.data 0 2).request.getUrl))))) =
      some (some [47, 97], [6, 7, -1, -1], 9, some [47, 98, 99]) := by
    decide +kernel
  obtain ⟨w, hw, hrest⟩ := Option.bind_eq_some_iff.mp hrun
  obtain ⟨⟨_, w1⟩, hremoved, hnext⟩ := Option.bind_eq_some_iff.mp hrest
  obtain ⟨w2, hw2, heq⟩ := Option.map_eq_some_iff.mp hnext
  obtain ⟨hurl, heq⟩ := Prod.mk.inj heq
  obtain ⟨hfds, heq⟩ := Prod.mk.inj heq
  obtain ⟨hclient, hnextUrl⟩ := Prod.mk.inj heq
  simp only [List.map_cons, List.map_nil, List.cons.injEq, and_true] at hfds
  obtain ⟨hfd0, hfd1, hread, hwrite⟩ := hfds
  have hpositive : ∀ place, w.fdAt 0 2 place = -1 ∨ 0 < w.fdAt 0 2 place := by
    intro place
    cases place with
    | fd0 => omega
    | fd1 => omega
    | pipeRead => omega
    | pipeWrite => omega
  have hopened : (w1.setKernel (w1.kernel.opened 8 true)).data 0 2 = w1.data 0 2 := rfl
  have hlike := fun actions => recycled_like_new hpositive hremoved hopened {} 8 .request actions
  exact ⟨w, w1, hw, hurl, hremoved, ⟨w2, hw2, hclient, hnextUrl⟩, (hlike nextClient).2,
    (hlike (.continue 0 {} :: nextRequest 8)).1⟩

end EpollHttp
