import EpollHttp.Executors.AttentiveRequests
import EpollHttp.PollLoop.Bookkeeping
import EpollHttp.PollLoop.Upkeep

/-
Every executor accepts what it is watched for, in every run in which the SSL library widens no mask.

A call of an executor settles its own stance and leaves those of the others alone.  Executors that
do not stay are removed in the same step.
-/

namespace EpollHttp

open Program

/-- The stances of all executors fit. -/
def World.Attentive (w : World) : Prop := ∀ l r, (w.stance l r).Fits

/-- The SSL library widens no mask, and no descriptor is closed that is open. -/
def KeepsMasks (w : World) (a : Action) : Prop :=
  (∀ fd ∈ a.closesAgain w, w.kernel.openId? fd = none) ∧
    ∀ call ∈ a.call w, ¬ call.executor.Widens call.ans call.data call.fd call.events

instance (w : World) (a : Action) : Decidable (KeepsMasks w a) :=
  inferInstanceAs (Decidable ((∀ fd ∈ a.closesAgain w, _) ∧ ∀ call ∈ a.call w, _))

section
variable {ans : Answers} {w w' : World} {l r : Nat} {s : Stance} {e : Executor} {a : Action}

/-- Who has no class accepts everything. -/
theorem fits_of_exec (h : ∀ e, s.exec = some e → ¬ e.Serves) : s.Fits := by
  unfold Stance.Fits
  cases hexec : s.exec with
  | none => trivial
  | some e =>
    have hserves := h e hexec
    cases e with
    | newFd => trivial
    | server => trivial
    | sslServer => trivial
    | _ => exact absurd trivial hserves

theorem fits_of_none (h : s.exec = none) : s.Fits :=
  fits_of_exec (fun _ he => absurd (h.symm.trans he) (by exact fun hnone => by cases hnone))

/-- `up` of the executors that are set up with new data. -/
theorem upCreated_upped (hdid : Did l r (some e) w w) (halone : (w.data l r).Alone)
    (hpoll : w.pollDataAt l r .fd0 = none)
    (hfd : ¬ (e = .request ∨ e = .sslRequest) → w.fdAt l r .fd0 = -1) :
    Ensures (upCreated e ans l r) w (Upped l r w) := by
  have hexec : (w.stance l r).exec = some e := hdid.exec
  have hstart : Stands l r w (w.stance l r) w := Stands.start hdid.booked hdid.inUse
  have hupstream : (w.stance l r).upstream = none := hstart.upstream_none.mpr halone.2
  have hserver : ¬ e.Serves → w.fdAt l r .fd0 = -1 →
      Ensures (serverUp ans l r) w (Upped l r w) := by
    intro hserves hold
    refine (did_serverUp hdid hpoll hold).mono (fun result w1 h1 => ?_)
    have hexec1 : (w1.stance l r).exec = some e := h1.exec
    refine ⟨w1.stance l r, ⟨by rw [hexec1]; exact h1, rfl⟩, fun _ => fits_of_exec (fun e' he' => ?_)⟩
    rw [← Option.some.inj (hexec1.symm.trans he')]
    exact hserves
  cases e with
  | request => exact RequestExecutor.up_upped hstart hexec hupstream
  | sslRequest => exact SslRequestExecutor.up_upped hstart ⟨hexec, hupstream⟩
  | server => exact hserver id (hfd (by decide))
  | sslServer => exact hserver id (hfd (by decide))
  | _ => exact ensures_fail.mpr trivial

/-- That its stance fits is the condition that every executor restores. -/
theorem attentive_upkeep : Upkeep (fun d mask => Stance.Fits
      { exec := d.pExecutor, state := d.state, client := mask .fd0, upstream := mask .fd1 })
    (fun call => ¬ call.executor.Widens call.ans call.data call.fd call.events) where
  classless := fun _ _ hnone => fits_of_none hnone
  stamped := fun _ _ _ h => h
  eventFd := fun d _ hexec _ => by
    refine fits_of_exec (fun e he => ?_)
    obtain rfl : Executor.newFd = e := Option.some.inj (hexec.symm.trans he)
    exact not_false
  up := fun ans w l r e hdid halone hpoll hfd =>
    (upCreated_upped hdid halone hpoll hfd).mono (fun result w' h => by
      obtain ⟨s, hs, hfits⟩ := h
      refine ⟨⟨_, hs.did⟩, fun hok => ?_⟩
      change (w'.stance l r).Fits
      rw [hs.stance]
      exact hfits hok)
  process := fun call w l r hb huse hdata he hserves hpos hnot h => by
    rw [← hdata] at he hnot
    refine (Executor.process_settled hserves (Stands.start hb huse) he h hpos hnot).mono
      (fun result w' h1 hok => ?_)
    obtain ⟨s, hs, hfits⟩ := h1
    refine (hfits hok).imp_left (fun hs' => ?_)
    change (w'.stance l r).Fits
    rw [hs.stance]
    exact hs'

theorem step_attentive (h : Steady w ∧ w.Attentive)
    (hstep : Run.guard KeepsMasks World.step w a = some w') : Steady w' ∧ w'.Attentive := by
  obtain ⟨hkeeps, hstep⟩ := Run.guard_some hstep
  exact step_allMeet attentive_upkeep h.1 h.2 hkeeps.1 hkeeps.2 hstep

theorem attentive_start (parameters : ServerParameters) :
    World.Attentive { parameters := parameters } := fun _ _ => fits_of_none rfl

end

/-- In every run in which no mask is widened, `process` calls one of its handlers for every event
that a descriptor of the executor is watched for. -/
theorem run_handlesAsked {parameters : ServerParameters} {actions : List Action} {w : World}
    (hrun : Run.run (Run.guard KeepsMasks World.step) { parameters := parameters } actions = some w)
    {l r : Nat} {e : Executor} (he : (w.data l r).pExecutor = some e) (hserves : e.Serves)
    {place : Place} {mask : Nat} (hmask : w.mask l r place = some mask) {events : Nat}
    (hasked : AskedFor mask events) (ans : Answers) :
    e.Accepts (w.data l r) (w.fdAt l r place) events ∧ ∃ handler ∈ e.handlers ans l r,
      e.process ans l r (w.fdAt l r place) events w = handler w := by
  have hinv : Steady w ∧ w.Attentive :=
    Run.run_invariant (fun _ _ _ h hs => step_attentive h hs)
      ⟨steady_start parameters, attentive_start parameters⟩ hrun
  have haccepts := acceptsAsked_of_fits (hinv.2 l r) e he hserves place mask hmask events hasked
  exact ⟨haccepts, Executor.process_accepted hserves haccepts⟩

/-- A client whose handshake takes two rounds. -/
def sslClient : List Action :=
  [.init 0 { epollCreate := 3, eventfd := 4 },
    .listenPort 0 .serverSsl { socket := 5 },
    .epollWait 0 [(5, EPOLLIN)] 0,
    .continue 0 { accept4 := 6, sslDoHandshake := some .wantRead },
    .continue 0 {},
    .epollWait 0 [(6, EPOLLIN)] 0,
    .continue 0 {},
    .continue 0 {},
    .epollWait 0 [(6, EPOLLIN)] 0]

/-- `GET / HTTP` with one header. -/
def fileRequest : Bytes :=
  [71, 69, 84, 32, 47, 32, 72, 84, 84, 80, 13, 10, 65, 58, 32, 98, 13, 10, 13, 10]

/-- The client of a file that is sent through the SSL library. -/
theorem run_handlesAsked_sslClient : ∃ w, Run.run (Run.guard KeepsMasks World.step)
      { parameters := { rootFolder := [47] } } (sslClient ++
        [.continue 0 { sslRead := fileRequest, openFile := 7, fstat := some (2, 0) }]) = some w ∧
    Executor.sslFile.Accepts (w.data 0 2) (w.fdAt 0 2 .fd0) EPOLLOUT ∧
      ∃ handler ∈ Executor.sslFile.handlers {} 0 2,
        Executor.sslFile.process {} 0 2 (w.fdAt 0 2 .fd0) EPOLLOUT w = handler w := by
  have hrun : ((Run.run (Run.guard KeepsMasks World.step)
      { parameters := { rootFolder := [47] } } (sslClient ++
        [.continue 0 { sslRead := fileRequest, openFile := 7, fstat := some (2, 0) }])).map
          (fun w => ((w.data 0 2).pExecutor, w.mask 0 2 .fd0))) =
      some (some .sslFile, some (watched EPOLLOUT)) := by
    decide +kernel
  obtain ⟨w, hw, heq⟩ := Option.map_eq_some_iff.mp hrun
  obtain ⟨hexec, hmask⟩ := Prod.mk.inj heq
  exact ⟨w, hw, run_handlesAsked hw hexec trivial hmask (by decide) {}⟩

/-- `SSL_read` asks for a write, and the event that the client is watched for from then on is an
invalid call of `process`. -/
theorem sslClient_refused : ∃ w, Run.run World.step { parameters := { rootFolder := [47] } }
      (sslClient ++ [.continue 0 { sslReadError := .wantWrite }]) = some w ∧
    ∃ mask, w.mask 0 2 .fd0 = some mask ∧ AskedFor mask EPOLLOUT ∧ ∀ ans,
      Executor.sslRequest.process ans 0 2 (w.fdAt 0 2 .fd0) EPOLLOUT w =
        some (.removeExecutorError, w) := by
  have hrun : ((Run.run World.step { parameters := { rootFolder := [47] } }
      (sslClient ++ [.continue 0 { sslReadError := .wantWrite }])).map
        (fun w => (w.mask 0 2 .fd0, (w.data 0 2).state))) =
      some (some (watched (EPOLLIN ||| EPOLLOUT)), .readRequest) := by
    decide +kernel
  obtain ⟨w, hw, heq⟩ := Option.map_eq_some_iff.mp hrun
  obtain ⟨hmask, hstate⟩ := Prod.mk.inj heq
  refine ⟨w, hw, _, hmask, by decide, fun ans => Executor.process_invalid ?_⟩
  intro haccepts
  rcases haccepts with ⟨hother, _⟩ | ⟨_, _, hevents⟩
  · rw [hstate] at hother
    cases hother
  · cases hevents

end EpollHttp
