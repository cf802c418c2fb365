import EpollHttp.Executors.AccessSteps
import EpollHttp.PollLoop.Creation

/-
The bytes that are moved where a request is read and handed over, and by the calls of `up`.
-/

namespace EpollHttp

open Program

section
variable {a : Access} {l r : Nat} {w0 w w' : World} {h : Place → Int} {t : Terms} {ans : Answers}

/-- Only fields are assigned that are no descriptors; the terms may become others. -/
theorem Handling.assigned (H : Handling a l r w0 h t w) {d : ExecutorData}
    (hheld : (w.data l r).SameHolding d) (hexec : d.pExecutor = (w.data l r).pExecutor) :
    Handling a l r w0 h d.terms (w.setData l r d) := by
  have hd : Did l r d.pExecutor w0 (w.setData l r d) := by
    rw [hexec, H.did.exec]
    exact H.did.data hheld hexec
  refine H.same hd (Kernel.SameStreams.refl _) (fun place => ?_) ?_
  · rw [World.setData_fdAt, if_pos ⟨rfl, rfl⟩]
    exact hheld.1 place
  · rw [World.setData_self]

/-! ## Executors that answer -/

namespace FileExecutor

/-- The file that is opened is held by an executor that held nothing but its client. -/
theorem handled_up (hx : t.exec ≠ some .request ∧ t.exec ≠ some .sslRequest)
    (H : Handling a l r w0 h t w) (halone : (w.data l r).Alone) :
    Ensures (up ans l r) w (fun _ w' =>
      Handled a l r w0 { t with removeOnTimeout := true } w') := by
  simp only [up, ensures_bind, ensures_modifyData]
  have H1 := H.assigned (d := { w.data l r with removeOnTimeout := true })
    ⟨fun _ => rfl, fun _ => rfl⟩ rfl
  have halone1 : ((w.setData l r { w.data l r with removeOnTimeout := true }).data l r).Alone := by
    rw [World.setData_self]
    exact halone
  have hterms : ({ w.data l r with removeOnTimeout := true } : ExecutorData).terms =
      { t with removeOnTimeout := true } := by
    rw [← H.terms]
    rfl
  rw [hterms] at H1
  refine ((did_newFd1 hx H1.did halone1).and newDescriptor_spec).mono
    (fun fd1 w2 hboth => ?_)
  obtain ⟨hd, hnew⟩ := hboth
  have hsocket : Socket (w.setData l r { w.data l r with removeOnTimeout := true }) fd1 w2 := by
    rcases hnew with ⟨rfl, rfl⟩ | ⟨rfl, havail, rfl⟩
    · exact Or.inl ⟨rfl, Or.inl rfl⟩
    · exact Or.inr ⟨havail, rfl⟩
  have H2 := H1.socket .fd1 (Or.inr rfl) hsocket hd
  exact Preserves.handled (fun _ => Preserves.ite (Preserves.ite handling_upNotFound Preserves.pure)
    handling_upOpened) _ H2

end FileExecutor

namespace ProxyExecutor

theorem handled_up (hx : t.exec ≠ some .request ∧ t.exec ≠ some .sslRequest)
    (H : Handling a l r w0 h t w) (halone : (w.data l r).Alone) :
    Ensures (up ans l r) w (fun _ w' =>
      Handled a l r w0 { t with removeOnTimeout := true } w') := by
  simp only [up, ensures_bind, ensures_modifyData]
  have H1 := H.assigned (d := { w.data l r with removeOnTimeout := true })
    ⟨fun _ => rfl, fun _ => rfl⟩ rfl
  have halone1 : ((w.setData l r { w.data l r with removeOnTimeout := true }).data l r).Alone := by
    rw [World.setData_self]
    exact halone
  have hterms : ({ w.data l r with removeOnTimeout := true } : ExecutorData).terms =
      { t with removeOnTimeout := true } := by
    rw [← H.terms]
    rfl
  rw [hterms] at H1
  generalize w.setData l r { w.data l r with removeOnTimeout := true } = w1 at H1 halone1
  rw [ensures_getData]
  cases (w1.data l r).proxy with
  | none => exact ensures_pure.mpr H1.handled
  | some proxy =>
    simp only [ensures_ite, ensures_pure, ensures_bind, ensures_modifyData]
    refine ⟨fun _ => H1.handled, fun _ => connect_spec.mono (fun res w2 hs => ?_)⟩
    have hd := did_socket .fd1 H1.did halone1.2 halone1.1 (fun _ => hx) hs
    have H2 := H1.socket .fd1 (Or.inr rfl) hs hd
    exact ⟨fun _ => H2, fun _ => Preserves.handled (fun _ => handling_watchUpstream) _ H2⟩

end ProxyExecutor

/-! ## Requests -/

/-- What `up` agrees on with a client. -/
def Terms.prepared (t : Terms) (connectionType : Nat) : Terms :=
  { t with connectionType := connectionType, removeOnTimeout := true, request := t.request.reset }

/-- Where a request was routed to. -/
def Routed (proxies : List ProxyParameters) (t : Terms) :
    RequestExecutor.ParseRequestResult → Prop
  | .file => RequestExecutor.findProxy proxies t.request = none
  | .proxy => ∃ proxy, RequestExecutor.findProxy proxies t.request = some proxy ∧
      t.connectionType &&& proxy.connectionType ≠ 0 ∧ t.proxy = some proxy
  | _ => True

namespace RequestExecutor

theorem handling_prepare (H : Handling a l r w0 h t w) (connectionType : Nat) :
    Ensures (prepare l r connectionType) w (fun _ w' =>
      Handling a l r w0 h (t.prepared connectionType) w') := by
  unfold prepare
  rw [ensures_modifyData]
  -- The new buffer is long, and nothing depends on what is in it.
  generalize List.replicate ExecutorData.REQUEST_BUFFER_SIZE (0 : UInt8) = bytes
  have H1 := H.assigned (d := { w.data l r with
    removeOnTimeout := true
    connectionType := connectionType
    buffer := (w.data l r).buffer.init bytes
    request := (w.data l r).request.reset }) ⟨fun _ => rfl, fun _ => rfl⟩ rfl
  rw [← H.terms]
  exact H1

theorem handling_up (H : Handling a l r w0 h t w) :
    Ensures (up ans l r) w (fun _ w' =>
      Handling a l r w0 h (t.prepared ConnectionType.clear) w') := by
  rw [up, ensures_bind]
  refine (handling_prepare H ConnectionType.clear).mono (fun _ w1 H1 => ?_)
  refine handling_getData (fun data _ => ?_) w1 H1
  refine Preserves.bind handling_addPollFd (fun added => ?_)
  refine Preserves.ite Preserves.pure ?_
  exact Preserves.bind handling_setState (fun _ => Preserves.pure)

theorem handling_readRequest (e : Executor) (hr : a.reads .fd0) :
    Preserves (Handling a l r w0 h t) (readRequest e ans l r) := by
  refine handling_getData (fun data _ => ?_)
  rcases data.buffer.startWrite with ⟨window, buffer⟩
  refine Preserves.bind (handling_assign (fun _ _ => rfl) (fun _ _ => rfl) (fun _ => rfl))
    (fun _ => ?_)
  cases window with
  | none => exact Preserves.pure
  | some window =>
    refine Preserves.bind (handling_readFd0 e hr) (fun received => ?_)
    refine Preserves.ite ?_ ?_
    · refine Preserves.ite Preserves.pure ?_
      exact Preserves.bind handling_countRetry (fun _ => Preserves.pure)
    · refine Preserves.bind (handling_assign (fun _ _ => rfl) (fun _ _ => rfl) (fun _ => rfl))
        (fun _ => ?_)
      exact Preserves.bind handling_clearRetries (fun _ => Preserves.pure)

/-- The file is named in the loop, and the connection does not see it. -/
theorem handling_nameFile {url : Bytes} :
    Preserves (Handling a l r w0 h t) (nameFile l url) := by
  have hname : ∀ {w1 : World} {b : Bytes}, Did l r t.exec w0 (w1.setLoop l
        { w1.loops l with fileNameBuffer := b }) → Handling a l r w0 h t w1 →
      Handling a l r w0 h t (w1.setLoop l { w1.loops l with fileNameBuffer := b }) := by
    intro w1 b hd H1
    have hdata : (w1.setLoop l { w1.loops l with fileNameBuffer := b }).data l r =
        w1.data l r := by
      rw [World.setLoop_data]
      exact fun _ => rfl
    refine H1.same hd (Kernel.SameStreams.refl _) (fun place => ?_) ?_
    · unfold World.fdAt
      rw [hdata]
    · rw [hdata]
      exact H1.terms
  intro w H
  refine ((did_nameFile w H.did).and (?_ : Ensures _ w (fun _ w' =>
    ∃ b, w' = w.setLoop l { w.loops l with fileNameBuffer := b }))).mono (fun _ w' hboth => ?_)
  · simp only [nameFile, appendFileName, ensures_bind, ensures_modifyLoop, ensures_ite,
      ensures_getLoop, ensures_pure, World.setLoop_self, setLoop_setLoop]
    exact ⟨fun _ => ⟨_, rfl⟩, fun _ => ⟨fun _ => ⟨_, rfl⟩, fun _ => ⟨_, rfl⟩⟩⟩
  · obtain ⟨hd, b, rfl⟩ := hboth
    exact hname hd H

theorem Handling.parameters (H : Handling a l r w0 h t w) : w.parameters = w0.parameters :=
  have hdeeds : Deeds l w0 none none w := H.did.effects.deeds
  hdeeds.parameters

/-- The request of the data is the one that is dispatched. -/
theorem handling_dispatchRequest (H : Handling a l r w0 h t w) :
    Ensures (dispatchRequest l r t.request) w (fun result w' => ∃ proxy,
      Handling a l r w0 h { t with proxy := proxy } w' ∧
        Routed w0.parameters.proxies { t with proxy := proxy } result) := by
  have hstays : ∀ result, result ≠ .file → result ≠ .proxy → ∃ proxy,
      Handling a l r w0 h { t with proxy := proxy } w ∧
        Routed w0.parameters.proxies { t with proxy := proxy } result := by
    intro result hfile hproxy
    refine ⟨t.proxy, H, ?_⟩
    cases result with
    | file => exact absurd rfl hfile
    | proxy => exact absurd rfl hproxy
    | again => trivial
    | invalid => trivial
  rw [dispatchRequest, ensures_bind, ensures_getData, ensures_bind, ensures_get,
    Handling.parameters H]
  cases hfind : findProxy w0.parameters.proxies t.request with
  | some proxy =>
    simp only [ensures_ite, ensures_pure, ensures_bind, ensures_modifyData]
    refine ⟨fun _ => hstays .invalid (by decide) (by decide), fun hallowed => ?_⟩
    have hconnection : (w.data l r).connectionType = t.connectionType :=
      congrArg Terms.connectionType H.terms
    rw [hconnection] at hallowed
    have H1 := H.assigned (d := { w.data l r with proxy := some proxy })
      ⟨fun _ => rfl, fun _ => rfl⟩ rfl
    have hterms : ({ w.data l r with proxy := some proxy } : ExecutorData).terms =
        { t with proxy := some proxy } := by
      rw [← H.terms]
      rfl
    rw [hterms] at H1
    exact ⟨some proxy, H1, proxy, hfind, hallowed, rfl⟩
  | none =>
    cases t.request.getUrl with
    | none => exact ensures_pure.mpr (hstays .invalid (by decide) (by decide))
    | some url =>
      refine (handling_nameFile w H).and (?_ : Ensures _ w (fun result _ =>
        result = .file ∨ result = .invalid)) |>.mono (fun result w' hboth => ?_)
      · simp only [nameFile, appendFileName, ensures_bind, ensures_modifyLoop, ensures_ite,
          ensures_getLoop, ensures_pure]
        exact ⟨fun _ => Or.inl trivial, fun _ => ⟨fun _ => Or.inl trivial, fun _ => Or.inr trivial⟩⟩
      · obtain ⟨H', hresult⟩ := hboth
        refine ⟨t.proxy, H', ?_⟩
        rcases hresult with rfl | rfl
        · exact hfind
        · trivial

/-- The terms change in the request and in the proxy that was found for it. -/
theorem handling_parseRequest (H : Handling a l r w0 h t w) :
    Ensures (parseRequest l r) w (fun result w' => ∃ request proxy,
      Handling a l r w0 h { t with request := request, proxy := proxy } w' ∧
        Routed w0.parameters.proxies { t with request := request, proxy := proxy } result) := by
  rw [parseRequest, ensures_bind, ensures_getData]
  cases (w.data l r).buffer.startRead with
  | none => exact ensures_pure.mpr ⟨t.request, t.proxy, H, trivial⟩
  | some window =>
    dsimp only
    rcases (w.data l r).request.parse ((w.data l r).buffer.slice window.start
      (window.start + window.size)) with _ | ⟨result, request⟩
    · exact ensures_fail.mpr trivial
    dsimp only
    rw [ensures_bind, ensures_modifyData]
    have H1 := H.assigned (d := { w.data l r with request := request })
      ⟨fun _ => rfl, fun _ => rfl⟩ rfl
    have hterms : ({ w.data l r with request := request } : ExecutorData).terms =
        { t with request := request } := by
      rw [← H.terms]
      rfl
    rw [hterms] at H1
    cases result with
    | finishOk =>
      refine (handling_dispatchRequest H1).mono (fun result w' h1 => ?_)
      obtain ⟨proxy, H2, hrouted⟩ := h1
      exact ⟨request, proxy, H2, hrouted⟩
    | needMoreData => exact ensures_pure.mpr ⟨request, t.proxy, H1, trivial⟩
    | finishInvalid => exact ensures_pure.mpr ⟨request, t.proxy, H1, trivial⟩

/-- The executor that answers takes over from one that holds nothing but its client. -/
theorem handled_setExecutor {e : Executor} (he : e ≠ .request ∧ e ≠ .sslRequest)
    (H : Handling a l r w0 h t w) (halone : (w.data l r).Alone) :
    Ensures (setExecutor e ans l r) w (fun _ w' =>
      Handled a l r w0 { t with exec := some e, removeOnTimeout := true } w') := by
  have hx : some e ≠ some Executor.request ∧ some e ≠ some Executor.sslRequest :=
    ⟨fun heq => he.1 (Option.some.inj heq), fun heq => he.2 (Option.some.inj heq)⟩
  have hd1 := H.did.become (d := { w.data l r with pExecutor := some e })
    ⟨fun _ => rfl, fun _ => rfl⟩ (fun _ => halone)
  have H1 : Handling a l r w0 h { t with exec := some e }
      (w.setData l r { w.data l r with pExecutor := some e }) := by
    refine H.same hd1 (Kernel.SameStreams.refl _) (fun place => ?_) ?_
    · rw [World.setData_fdAt, if_pos ⟨rfl, rfl⟩]
      cases place <;> rfl
    · rw [World.setData_self, ← H.terms]
      rfl
  have halone1 : ((w.setData l r { w.data l r with pExecutor := some e }).data l r).Alone := by
    rw [World.setData_self]
    exact halone
  have hup : Ensures (upAnswering e ans l r) (w.setData l r { w.data l r with pExecutor := some e })
      (fun _ w' => Handled a l r w0 { t with exec := some e, removeOnTimeout := true } w') := by
    cases e with
    | file => exact FileExecutor.handled_up hx H1 halone1
    | sslFile => exact FileExecutor.handled_up hx H1 halone1
    | proxySplice => exact ProxyExecutor.handled_up hx H1 halone1
    | proxyReadWrite => exact ProxyExecutor.handled_up hx H1 halone1
    | sslProxy => exact ProxyExecutor.handled_up hx H1 halone1
    | _ => exact ensures_fail.mpr trivial
  simp only [setExecutor, ensures_bind, ensures_modifyData, ensures_ite, ensures_pure]
  exact hup.mono (fun _ _ h2 => ⟨fun _ => h2, fun _ => h2⟩)

end RequestExecutor

/-- The classes a connection is handed over to, for a file and for a proxy. -/
def Executor.successors : Executor → Option (Executor × Executor)
  | .request => some (.file, .proxySplice)
  | .sslRequest => some (.sslFile, .sslProxy)
  | _ => none

/-- What a call of `process` makes of the terms. -/
inductive Terms.Next (proxies : List ProxyParameters) (t : Terms) : Terms → Prop
  | same : Next proxies t t
  /-- More of the request was parsed. -/
  | parsed (e : Executor) (successors : Executor × Executor) (request : HttpRequest)
      (proxy : Option ProxyParameters) (he : t.exec = some e)
      (hsuccessors : e.successors = some successors) :
      Next proxies t { t with request := request, proxy := proxy }
  /-- The request is answered by the executor of the files or of the proxies. -/
  | handedOver (e : Executor) (successors : Executor × Executor)
      (result : RequestExecutor.ParseRequestResult) (e' : Executor) (request : HttpRequest)
      (proxy : Option ProxyParameters) (he : t.exec = some e)
      (hsuccessors : e.successors = some successors)
      (he' : (result = .file ∧ e' = successors.1) ∨ (result = .proxy ∧ e' = successors.2))
      (hrouted : Routed proxies { t with request := request, proxy := proxy } result) :
      Next proxies t { t with
        exec := some e', request := request, proxy := proxy, removeOnTimeout := true }

/-- A call that was made for the executor on the terms `t`. -/
def HandledNext (a : Access) (l r : Nat) (w0 : World) (t : Terms) (w : World) : Prop :=
  ∃ t', Handled a l r w0 t' w ∧ Terms.Next w0.parameters.proxies t t'

theorem Handling.next (H : Handling a l r w0 h t w) : HandledNext a l r w0 t w :=
  ⟨t, H.handled, .same⟩

theorem Handled.next (H : Handled a l r w0 t w) : HandledNext a l r w0 t w := ⟨t, H, .same⟩

namespace RequestExecutor

theorem handled_processReadRequest {e : Executor} {fileType proxyType : ExecutorType}
    (hr : a.reads .fd0) (he : t.exec = some e)
    (hsuccessors : e.successors =
      some (PollLoop.getExecutor fileType, PollLoop.getExecutor proxyType))
    (H : Handling a l r w0 h t w) :
    Ensures (processReadRequest e fileType proxyType ans l r) w (fun _ w' =>
      HandledNext a l r w0 t w') := by
  have hrequester : e = .request ∨ e = .sslRequest := by
    cases e with
    | request => exact Or.inl rfl
    | sslRequest => exact Or.inr rfl
    | _ => cases hsuccessors
  have hanswers : ∀ e' : Executor, e' = PollLoop.getExecutor fileType ∨
      e' = PollLoop.getExecutor proxyType → e' ≠ .request ∧ e' ≠ .sslRequest := by
    intro e' he'
    rcases hrequester with rfl | rfl
    · obtain ⟨h1, h2⟩ := Prod.mk.inj (Option.some.inj hsuccessors)
      rw [← h1, ← h2] at he'
      rcases he' with rfl | rfl <;> exact ⟨by decide, by decide⟩
    · obtain ⟨h1, h2⟩ := Prod.mk.inj (Option.some.inj hsuccessors)
      rw [← h1, ← h2] at he'
      rcases he' with rfl | rfl <;> exact ⟨by decide, by decide⟩
  simp only [processReadRequest, ensures_bind, ensures_ite, ensures_pure]
  refine (handling_readRequest e hr w H).mono (fun received w1 H1 => ?_)
  refine ⟨fun _ => H1.next, fun _ => ?_⟩
  refine (handling_parseRequest H1).mono (fun result w2 h2 => ?_)
  obtain ⟨request, proxy, H2, hrouted⟩ := h2
  have halone : (w2.data l r).Alone := by
    refine (H2.did.booked.loops l).alone r ?_
    unfold ExecutorData.Requester
    rw [H2.did.exec]
    rcases hrequester with rfl | rfl
    · exact Or.inl he
    · exact Or.inr he
  have hparsed : HandledNext a l r w0 t w2 :=
    ⟨_, H2.handled, .parsed e _ request proxy he hsuccessors⟩
  cases result with
  | file =>
    refine (handled_setExecutor (hanswers _ (Or.inl rfl)) H2 halone).mono (fun _ w3 H3 => ?_)
    exact ⟨_, H3, .handedOver e _ .file _ request proxy he hsuccessors (Or.inl ⟨rfl, rfl⟩) hrouted⟩
  | proxy =>
    refine (handled_setExecutor (hanswers _ (Or.inr rfl)) H2 halone).mono (fun _ w3 H3 => ?_)
    exact ⟨_, H3, .handedOver e _ .proxy _ request proxy he hsuccessors (Or.inr ⟨rfl, rfl⟩) hrouted⟩
  | invalid => exact ensures_pure.mpr hparsed
  | again => exact ensures_pure.mpr hparsed

theorem handled_process {fd : Int} {events : Nat} (hr : a.reads .fd0)
    (he : t.exec = some .request) (H : Handling a l r w0 h t w) :
    Ensures (process ans l r fd events) w (fun _ w' => HandledNext a l r w0 t w') := by
  simp only [process, ensures_bind, ensures_getData, ensures_ite, ensures_pure]
  exact ⟨fun _ => handled_processReadRequest hr he rfl H, fun _ => H.next⟩

end RequestExecutor

namespace SslRequestExecutor

theorem handling_sslInit (H : Handling a l r w0 h t w) :
    Ensures (sslInit ans l r) w (fun result w' =>
      (result = 0 ∧ Handling a l r w0 h { t with ssl := true } w') ∨
        (result = -1 ∧ Handling a l r w0 h t w')) := by
  simp only [sslInit, ensures_ite, ensures_bind, ensures_modifyData, ensures_pure]
  refine ⟨fun _ => Or.inl ⟨trivial, ?_⟩, fun _ => Or.inr ⟨trivial, H⟩⟩
  have H1 := H.assigned (d := { w.data l r with ssl := true }) ⟨fun _ => rfl, fun _ => rfl⟩ rfl
  rw [← H.terms]
  exact H1

theorem handling_watchHandshake {firstTime : Bool} {events : Nat} :
    Preserves (Handling a l r w0 h t) (watchHandshake ans l r firstTime events) := by
  refine handling_getData (fun data _ => ?_)
  exact Preserves.ite (Preserves.bind handling_addPollFd (fun _ => Preserves.pure))
    (Preserves.bind handling_editPollFd (fun _ => Preserves.pure))

theorem handling_handleHandshake {firstTime : Bool} :
    Preserves (Handling a l r w0 h t) (handleHandshake ans l r firstTime) := by
  unfold handleHandshake
  cases ans.sslDoHandshake with
  | none => exact Preserves.pure
  | some error =>
    cases error with
    | wantWrite => exact handling_watchHandshake
    | wantRead => exact handling_watchHandshake
    | other => exact Preserves.pure

theorem handling_upHandshake : Preserves (Handling a l r w0 h t) (upHandshake ans l r) := by
  refine Preserves.bind handling_handleHandshake (fun result => ?_)
  cases result with
  | ok =>
    refine handling_getData (fun data _ => ?_)
    refine Preserves.bind handling_addPollFd (fun added => ?_)
    refine Preserves.ite Preserves.pure ?_
    exact Preserves.bind handling_setState (fun _ => Preserves.pure)
  | again => exact Preserves.bind handling_setState (fun _ => Preserves.pure)
  | error => exact Preserves.pure

/-- The object of the SSL library is there when `up` succeeds. -/
theorem handling_up (H : Handling a l r w0 h t w) :
    Ensures (up ans l r) w (fun result w' => ∃ ssl,
      Handling a l r w0 h { t.prepared ConnectionType.ssl with ssl := ssl } w' ∧
        (result = 0 → ssl = true)) := by
  rw [up, ensures_bind]
  refine (RequestExecutor.handling_prepare H ConnectionType.ssl).mono (fun _ w1 H1 => ?_)
  rw [ensures_bind]
  refine (handling_sslInit H1).mono (fun inited w2 h2 => ?_)
  rw [ensures_ite, ensures_pure]
  rcases h2 with ⟨rfl, H2⟩ | ⟨rfl, H2⟩
  · refine ⟨fun hne => absurd rfl hne, fun _ => ?_⟩
    exact (handling_upHandshake w2 H2).mono (fun _ _ H3 => ⟨true, H3, fun _ => rfl⟩)
  · exact ⟨fun _ => ⟨t.ssl, H2, fun heq => absurd heq (by decide)⟩,
      fun heq => absurd (by decide) heq⟩

theorem handling_processHandshake :
    Preserves (Handling a l r w0 h t) (processHandshake ans l r) := by
  refine Preserves.bind handling_handleHandshake (fun result => ?_)
  cases result with
  | ok =>
    refine handling_getData (fun data _ => ?_)
    refine Preserves.bind handling_editPollFd (fun edited => ?_)
    refine Preserves.ite Preserves.pure ?_
    exact Preserves.bind handling_setState (fun _ => Preserves.pure)
  | again => exact Preserves.bind handling_countRetry (fun _ => Preserves.pure)
  | error => exact Preserves.pure

theorem handled_process {fd : Int} {events : Nat} (hr : a.reads .fd0)
    (he : t.exec = some .sslRequest) (H : Handling a l r w0 h t w) :
    Ensures (process ans l r fd events) w (fun _ w' => HandledNext a l r w0 t w') := by
  simp only [process, ensures_bind, ensures_getData, ensures_ite, ensures_pure]
  exact ⟨fun _ => (handling_processHandshake w H).mono (fun _ _ H1 => H1.next), fun _ =>
    ⟨fun _ => RequestExecutor.handled_processReadRequest hr he rfl H, fun _ => H.next⟩⟩

end SslRequestExecutor

/-! ## Every class -/

/-- What a class reads from and writes to. -/
def Executor.access : Executor → Access
  | .request => ⟨fun place => place = .fd0, fun _ => False⟩
  | .sslRequest => ⟨fun place => place = .fd0, fun _ => False⟩
  | .file => ⟨fun place => place = .fd1, fun place => place = .fd0⟩
  | .sslFile => ⟨fun place => place = .fd1, fun place => place = .fd0⟩
  | .proxySplice => ⟨fun place => place = .fd1, fun place => place = .fd0 ∨ place = .fd1⟩
  | .proxyReadWrite => ⟨fun place => place = .fd1, fun place => place = .fd0 ∨ place = .fd1⟩
  | .sslProxy => ⟨fun place => place = .fd1, fun place => place = .fd0 ∨ place = .fd1⟩
  | _ => ⟨fun _ => False, fun _ => False⟩

/-- A call of `process` of an executor that serves a client. -/
theorem process_handled {e : Executor} {fd : Int} {events : Nat} (hserves : e.Serves)
    (he : t.exec = some e) (H : Handling e.access l r w0 h t w) :
    Ensures (e.process ans l r fd events) w (fun _ w' => HandledNext e.access l r w0 t w') := by
  have hkept : ∀ {m : Prog ProcessResult}, Preserves (Handled e.access l r w0 t) m →
      Ensures m w (fun _ w' => HandledNext e.access l r w0 t w') :=
    fun hm => (hm w H.handled).mono (fun _ _ H' => H'.next)
  cases e with
  | newFd => exact hserves.elim
  | server => exact hserves.elim
  | sslServer => exact hserves.elim
  | request => exact RequestExecutor.handled_process rfl he H
  | sslRequest => exact SslRequestExecutor.handled_process rfl he H
  | file => exact hkept (Preserves.handled (fun _ => FileExecutor.handling_process .file rfl rfl))
  | sslFile => exact hkept (SslFileExecutor.handled_process rfl rfl)
  | proxySplice =>
    exact hkept (ProxyExecutorSplice.handled_process rfl (Or.inl rfl) (Or.inr rfl))
  | proxyReadWrite =>
    exact hkept (ProxyExecutorReadWrite.handled_process .proxyReadWrite rfl (Or.inl rfl)
      (Or.inr rfl))
  | sslProxy =>
    exact hkept (ProxyExecutorReadWrite.handled_process .sslProxy rfl (Or.inl rfl) (Or.inr rfl))

/-! ## Setting up -/

/-- The executors that listen open their socket themselves. -/
theorem handled_serverUp (H : Handling a l r w0 h t w) (hpoll : w.pollDataAt l r .fd0 = none)
    (hold : w.fdAt l r .fd0 = -1) : Ensures (serverUp ans l r) w (fun _ w' =>
      Handled a l r w0 { t with removeOnTimeout := false } w') := by
  simp only [serverUp, ensures_bind, ensures_modifyData]
  have H1 := H.assigned (d := { w.data l r with removeOnTimeout := false, state := .ok })
    ⟨fun _ => rfl, fun _ => rfl⟩ rfl
  have hterms : ({ w.data l r with removeOnTimeout := false, state := .ok } :
      ExecutorData).terms = { t with removeOnTimeout := false } := by
    rw [← H.terms]
    rfl
  rw [hterms] at H1
  have hpoll1 : (w.setData l r { w.data l r with removeOnTimeout := false, state := .ok }).pollDataAt
      l r .fd0 = none := by
    rw [World.setData_pollDataAt, if_pos ⟨rfl, rfl⟩]
    exact hpoll
  have hold1 : (w.setData l r { w.data l r with removeOnTimeout := false, state := .ok }).fdAt
      l r .fd0 = -1 := by
    rw [World.setData_fdAt, if_pos ⟨rfl, rfl⟩]
    exact hold
  refine socketListen_spec.mono (fun fd w2 hs => ?_)
  have hd := ProxyExecutor.did_socket .fd0 H1.did hpoll1 hold1 (fun hplace => by cases hplace) hs
  have H2 := H1.socket .fd0 (Or.inl rfl) hs hd
  refine Preserves.handled (fun _ => Preserves.ite Preserves.pure ?_) _ H2
  refine Preserves.bind handling_addPollFd (fun added => ?_)
  exact Preserves.ite Preserves.pure Preserves.pure

/-- What `up` makes of the terms, when it returns `result`. -/
inductive Terms.SetUp (t : Terms) (result : Int) : Terms → Prop
  | request (he : t.exec = some .request) : SetUp t result (t.prepared ConnectionType.clear)
  | sslRequest (he : t.exec = some .sslRequest) (ssl : Bool) (hssl : result = 0 → ssl = true) :
      SetUp t result { t.prepared ConnectionType.ssl with ssl := ssl }
  | server (he : t.exec = some .server ∨ t.exec = some .sslServer) :
      SetUp t result { t with removeOnTimeout := false }

/-- No byte is moved when an executor is set up. -/
theorem upCreated_handled {e : Executor} (he : t.exec = some e) (H : Handling a l r w0 h t w)
    (hpoll : w.pollDataAt l r .fd0 = none)
    (hold : ¬ (e = .request ∨ e = .sslRequest) → w.fdAt l r .fd0 = -1) :
    Ensures (upCreated e ans l r) w (fun result w' =>
      ∃ t', Handled a l r w0 t' w' ∧ t.SetUp result t') := by
  cases e with
  | request =>
    exact (RequestExecutor.handling_up H).mono (fun _ _ H' => ⟨_, H'.handled, .request he⟩)
  | sslRequest =>
    refine (SslRequestExecutor.handling_up H).mono (fun _ w' h' => ?_)
    obtain ⟨ssl, H', hssl⟩ := h'
    exact ⟨_, H'.handled, .sslRequest he ssl hssl⟩
  | server =>
    exact (handled_serverUp H hpoll (hold (by decide))).mono (fun _ _ H' =>
      ⟨_, H', .server (Or.inl he)⟩)
  | sslServer =>
    exact (handled_serverUp H hpoll (hold (by decide))).mono (fun _ _ H' =>
      ⟨_, H', .server (Or.inr he)⟩)
  | _ => exact ensures_fail.mpr trivial

end

end EpollHttp
