import EpollHttp.Accounts.Service
import EpollHttp.PollLoop.Delivery
import EpollHttp.Recycling.Slot

/-
The accounts of every run of the server.

Whatever the clients, the upstream servers and the files do and however the loops take turns, each
connection is answered from its own request and its own file or upstream server alone.
-/

namespace EpollHttp

open Program HttpRequest

section
variable {parameters : ServerParameters} {actions : List Action} {w : World} {l r id0 : Nat}
variable {e : Executor}

theorem run_accounted
    (hrun : Run.run (Run.guard SparesOpen World.step) { parameters := parameters } actions =
      some w) : Orderly w ∧ Accounted w l r :=
  have h := (upheld_accounted parameters).run hrun
  ⟨h.1, h.2.2 l r⟩

end

/-- Nothing was sent to a client whose request is read, and all that came from it lies in the buffer.
A client that is answered sent bytes that begin with a well-formed head, and the URL that is answered
is the one in that head. -/
theorem run_requests {parameters : ServerParameters} {actions : List Action} {w : World}
    (hrun : Run.run (Run.guard SparesOpen World.step) { parameters := parameters } actions =
      some w) {l r id0 : Nat} {e : Executor} (he : (w.data l r).pExecutor = some e)
    (hserves : e.Serves) (hat : w.HoldsAt l r .fd0 id0) :
    (e.successors ≠ none →
      w.kernel.sent id0 = [] ∧ (w.data l r).buffer.unread = w.kernel.taken id0) ∧
    (e.successors = none →
      ∃ head back, Headed (w.kernel.taken id0) (w.data l r).request head back) := by
  obtain ⟨_, haccounted⟩ := run_accounted hrun (l := l) (r := r)
  cases haccounted with
  | none hnone =>
    rw [he] at hnone
    cases hnone
  | service e' he' hclass =>
    obtain rfl := Option.some.inj (he.symm.trans he')
    rcases hclass with rfl | rfl | rfl
    · exact hserves.elim
    · exact hserves.elim
    · exact hserves.elim
  | reading e' he' hclass h =>
    obtain rfl := Option.some.inj (he.symm.trans he')
    refine ⟨fun _ => ⟨(h id0 hat).sent, (h id0 hat).held⟩, fun hnone => ?_⟩
    rcases hclass with rfl | rfl <;> cases hnone
  | answered e' he' hclass c h =>
    obtain rfl := Option.some.inj (he.symm.trans he')
    obtain ⟨rfl, rfl, hcomplete, _, hserving, _⟩ := h
    obtain rfl := Option.some.inj (hat.symm.trans hserving.client)
    refine ⟨fun hsome => absurd ?_ hsome, fun _ => hcomplete.headed⟩
    rcases hclass with rfl | rfl <;> rfl
  | relayed e' he' x hx c h =>
    obtain rfl := Option.some.inj (he.symm.trans he')
    obtain ⟨rfl, rfl, _, _, hcomplete, hinv, _⟩ := h
    obtain rfl := Option.some.inj (hat.symm.trans hinv.client)
    refine ⟨fun hsome => absurd ?_ hsome, fun _ => hcomplete.headed⟩
    cases hx with
    | splice => rfl
    | readWrite => rfl

theorem run_requests_proxiedClient : ∃ w head back,
    Run.run (Run.guard SparesOpen World.step) { parameters := proxying } proxiedClient = some w ∧
      Headed (w.kernel.taken 3) (w.data 0 2).request head back := by
  have hrun : (Run.run (Run.guard SparesOpen World.step) { parameters := proxying }
      proxiedClient).map (fun w =>
        ((w.data 0 2).pExecutor, w.kernel.openId? (w.data 0 2).fd0)) =
      some (some .proxySplice, some 3) := by
    decide +kernel
  obtain ⟨w, hw, heq⟩ := Option.map_eq_some_iff.mp hrun
  obtain ⟨hexec, hclient⟩ := Prod.mk.inj heq
  obtain ⟨head, back, hheaded⟩ := (run_requests hw hexec trivial hclient).2 rfl
  exact ⟨w, head, back, hw, hheaded⟩

/-- A proxy executor sends the upstream server nothing but what its client sent, and its client
nothing but what came from the upstream server, in every state and after every call; when the call
ends the connection, the client got all of it. -/
theorem run_relays {parameters : ServerParameters} {actions : List Action} {w : World}
    (hrun : Run.run (Run.guard SparesOpen World.step) { parameters := parameters } actions =
      some w) {l r : Nat} {e : Executor} (he : (w.data l r).pExecutor = some e)
    (hclass : e = .proxySplice ∨ e = .proxyReadWrite ∨ e = .sslProxy) :
    ∃ c : ProxyRelay.Connection, w.HoldsAt l r .fd0 c.id0 ∧ w.HeldOrDead l r c.id1 ∧ c.base = [] ∧
      c.request = w.kernel.taken c.id0 ∧
      ProxyRelay.Integrity c .ok (w.data l r).state w.kernel ∧
      ∀ ans fd events, Ensures (e.process ans l r fd events) w (fun result w' =>
        ProxyRelay.Integrity c result (w'.data l r).state w'.kernel) := by
  obtain ⟨ho, haccounted⟩ := run_accounted hrun (l := l) (r := r)
  cases haccounted with
  | relayed e' he' x hx c h =>
    obtain rfl := Option.some.inj (he.symm.trans he')
    have hserved := h.served ho he hx
    obtain ⟨rfl, rfl, hbase, hrequest, _, hinv, hserver⟩ := h
    exact ⟨c, hinv.client, hserver, hbase, hrequest, hinv.integrity (by decide),
      fun ans fd events => (hserved ans fd events).mono (fun _ _ h' => h'.1)⟩
  | none hnone =>
    rw [he] at hnone
    cases hnone
  | service e' he' hother =>
    obtain rfl := Option.some.inj (he.symm.trans he')
    rcases hother with rfl | rfl | rfl <;> rcases hclass with h | h | h <;> cases h
  | reading e' he' hother h =>
    obtain rfl := Option.some.inj (he.symm.trans he')
    rcases hother with rfl | rfl <;> rcases hclass with h | h | h <;> cases h
  | answered e' he' hother c h =>
    obtain rfl := Option.some.inj (he.symm.trans he')
    rcases hother with rfl | rfl <;> rcases hclass with h | h | h <;> cases h

theorem run_relays_proxiedClient : ∃ w, ∃ c : ProxyRelay.Connection,
    Run.run (Run.guard SparesOpen World.step) { parameters := proxying } proxiedClient = some w ∧
      c.request = w.kernel.taken c.id0 ∧
      ProxyRelay.Integrity c .ok (w.data 0 2).state w.kernel := by
  have hrun : (Run.run (Run.guard SparesOpen World.step) { parameters := proxying }
      proxiedClient).map (fun w => (w.data 0 2).pExecutor) = some (some .proxySplice) := by
    decide +kernel
  obtain ⟨w, hw, hexec⟩ := Option.map_eq_some_iff.mp hrun
  obtain ⟨c, _, _, _, hrequest, hintegrity, _⟩ := run_relays hw hexec (Or.inl rfl)
  exact ⟨w, c, hw, hrequest, hintegrity⟩

/-- A file executor sends its client the headers that announce the file and then, in their order, the
bytes that were read of it, and the call that ends the connection leaves as many sent as were
announced.  The class without SSL reads the file from where it stopped and never sends more. -/
theorem run_serves {parameters : ServerParameters} {actions : List Action} {w : World}
    (hrun : Run.run (Run.guard SparesOpen World.step) { parameters := parameters } actions =
      some w) {l r : Nat} {e : Executor} (he : (w.data l r).pExecutor = some e)
    (hclass : e = .file ∨ e = .sslFile) :
    ∃ c : Answer, w.HoldsAt l r .fd0 c.id0 ∧ c.Announces ∧
      (∀ id, c.file = some id → w.HeldOrDead l r id) ∧ Delivered c e .ok w.kernel ∧
      (e = .file → (w.data l r).filePosition = (c.came w.kernel).length) ∧
      ∀ ans fd events, Ensures (e.process ans l r fd events) w (fun result w' =>
        Delivered c e result w'.kernel) := by
  obtain ⟨ho, haccounted⟩ := run_accounted hrun (l := l) (r := r)
  cases haccounted with
  | answered e' he' hother c h =>
    obtain rfl := Option.some.inj (he.symm.trans he')
    have hserved := h.served ho he hclass
    obtain ⟨rfl, rfl, _, hannounces, hserving, hfile⟩ := h
    refine ⟨c, hserving.client, hannounces, hfile, hserving.delivered (by decide),
      fun hplain => ?_, fun ans fd events => (hserved ans fd events).mono (fun _ _ h' => h'.1)⟩
    cases hserving with
    | headers h =>
      rw [h.came]
      exact h.position
    | body h => exact (h.plain hplain).2.1
  | none hnone =>
    rw [he] at hnone
    cases hnone
  | service e' he' hother =>
    obtain rfl := Option.some.inj (he.symm.trans he')
    rcases hother with rfl | rfl | rfl <;> rcases hclass with h | h <;> cases h
  | reading e' he' hother h =>
    obtain rfl := Option.some.inj (he.symm.trans he')
    rcases hother with rfl | rfl <;> rcases hclass with h | h <;> cases h
  | relayed e' he' x hx c h =>
    obtain rfl := Option.some.inj (he.symm.trans he')
    cases hx with
    | splice => rcases hclass with h | h <;> cases h
    | readWrite => rcases hclass with h | h <;> cases h

theorem run_serves_fileClient : ∃ w, ∃ c : Answer,
    Run.run (Run.guard SparesOpen World.step) { parameters := { rootFolder := [47] } } fileClient =
        some w ∧
      w.HoldsAt 0 2 .fd0 c.id0 ∧ c.Announces ∧ Delivered c .file .ok w.kernel := by
  have hrun : (Run.run (Run.guard SparesOpen World.step) { parameters := { rootFolder := [47] } }
      fileClient).map (fun w => (w.data 0 2).pExecutor) = some (some .file) := by
    decide +kernel
  obtain ⟨w, hw, hexec⟩ := Option.map_eq_some_iff.mp hrun
  obtain ⟨c, hclient, hannounces, _, hdelivered, _⟩ := run_serves hw hexec (Or.inl rfl)
  exact ⟨w, c, hw, hclient, hannounces, hdelivered⟩

end EpollHttp
