import EpollHttp.PollLoop.Run
import EpollHttp.Lib.Run

/-
What the executors find in `errno`.

A call sets `errno` when it returns -1, and a call of the log may set it to anything.  The
executors also look at it behind a call that returned 0, where it holds what was left over, and
behind a line of the log.  `Answers` holds what they find; here it is put together from what the
calls themselves return and from the rest.
-/

namespace EpollHttp
namespace StaleErrno

/-- What the calls of one step return.  The error codes are those of the calls that returned -1. -/
structure Calls extends Answers where
  /-- The error code, when `getsockopt` returned -1. -/
  getsockopt : Option Nat := none

/-- The values of `errno` that are not of the call in question: those left over in front of a
call, and those that the log sets behind it, if it does. -/
structure Stray where
  leftRead : Nat := 0
  leftWrite : Nat := 0
  leftSendfile : Nat := 0
  logOpen : Option Nat := none
  logRead : Option Nat := none
  logSpliceIn : Option Nat := none
  logSpliceOut : Option Nat := none
  logGetsockopt : Option Nat := none

/-- The class reads from the upstream server and logs the result before it looks at `errno`. -/
def LogsRead (e : Executor) : Prop := e = .proxyReadWrite ∨ e = .sslProxy

instance (e : Executor) : Decidable (LogsRead e) := inferInstanceAs (Decidable (_ ∨ _))

/-- `sendfile` is asked for no byte or is at the end of the file. -/
def SendsNothing (d : ExecutorData) (c : Calls) : Prop :=
  c.sendfile.bytes.map (·.take d.bytesToSend.toNat) = some []

instance (d : ExecutorData) (c : Calls) : Decidable (SendsNothing d c) :=
  inferInstanceAs (Decidable (_ = _))

def foundRead (e : Executor) (c : Calls) (s : Stray) : Nat :=
  if e = .request ∧ c.read.bytes = some [] then s.leftRead
  else if LogsRead e ∧ c.read.bytes = none then s.logRead.getD c.read.errno
  else c.read.errno

def foundWrite (c : Calls) (s : Stray) : Nat :=
  if c.write.count = 0 then s.leftWrite else c.write.errno

def foundSendfile (d : ExecutorData) (c : Calls) (s : Stray) : Nat :=
  if SendsNothing d c then s.leftSendfile else c.sendfile.errno

def foundOpen (c : Calls) (s : Stray) : Nat :=
  if c.openFile < 0 then s.logOpen.getD c.openErrno else c.openErrno

def foundSpliceIn (c : Calls) (s : Stray) : Nat :=
  if c.spliceIn.bytes = none then s.logSpliceIn.getD c.spliceIn.errno else c.spliceIn.errno

def foundSpliceOut (c : Calls) (s : Stray) : Nat :=
  if c.spliceOut.count < 0 then s.logSpliceOut.getD c.spliceOut.errno else c.spliceOut.errno

/-- What `socketConnectNonBlockCheck` returns. -/
def foundSocketError (c : Calls) (s : Stray) : Nat :=
  match c.getsockopt with
  | none => c.socketError
  | some errno => s.logGetsockopt.getD errno

/-- The answers as an executor of the class `e` finds them for the connection `d`. -/
def found (e : Executor) (d : ExecutorData) (c : Calls) (s : Stray) : Answers :=
  { c.toAnswers with
    read := { c.read with errno := foundRead e c s }
    write := { c.write with errno := foundWrite c s }
    sendfile := { c.sendfile with errno := foundSendfile d c s }
    openErrno := foundOpen c s
    spliceIn := { c.spliceIn with errno := foundSpliceIn c s }
    spliceOut := { c.spliceOut with errno := foundSpliceOut c s }
    socketError := foundSocketError c s }

/-! ## Steps -/

inductive Step
  /-- `process` of the executor of a connection. -/
  | process (l r : Nat) (fd : Int) (events : Nat) (calls : Calls)
  /-- What the rest of the server does. -/
  | elsewhere (f : World → Option World)

structure Steps where
  world : World
  results : List ProcessResult

def step (x : Steps) (a : Step × Stray) : Option Steps :=
  match a.1 with
  | .process l r fd events calls =>
    match (x.world.data l r).pExecutor with
    | none => none
    | some e =>
      (e.process (found e (x.world.data l r) calls a.2) l r fd events x.world).map
        (fun y => { world := y.2, results := x.results ++ [y.1] })
  | .elsewhere f => (f x.world).map (fun w => { x with world := w })

/-! ## Calls that settle `errno` -/

/-- The class writes to a descriptor and looks at `errno` behind it. -/
def Writes (e : Executor) : Prop :=
  e = .file ∨ e = .proxySplice ∨ e = .proxyReadWrite ∨ e = .sslProxy

instance (e : Executor) : Decidable (Writes e) := inferInstanceAs (Decidable (_ ∨ _))

/-- Where the step of a connection looks at `errno`, the call in front of it returned -1 and no
line of the log lies between.  The answer to a call that the step does not make is free. -/
structure Settled (e : Executor) (d : ExecutorData) (c : Calls) : Prop where
  read : e = .request → c.read.bytes ≠ some []
  write : Writes e → c.write.count ≠ 0
  sendfile : e = .file ∨ e = .sslFile → ¬ SendsNothing d c
  openFile : e = .request ∨ e = .sslRequest → 0 ≤ c.openFile
  readUpstream : LogsRead e → c.read.bytes ≠ none
  spliceIn : e = .proxySplice → c.spliceIn.bytes ≠ none
  spliceOut : e = .proxySplice → 0 ≤ c.spliceOut.count
  getsockopt : Writes e → c.getsockopt = none

/-- The answers without those that the class has no use for. -/
def keep (e : Executor) (ans : Answers) : Answers :=
  match e with
  | .request =>
    { ans with write := {}, spliceIn := {}, spliceOut := {}, sendfile := {}, socketError := 0 }
  | .sslRequest =>
    { ans with
      read := {}, write := {}, spliceIn := {}, spliceOut := {}, sendfile := {}, socketError := 0 }
  | .file => { ans with read := {}, spliceIn := {}, spliceOut := {}, openErrno := 0 }
  | .proxySplice => { ans with read := {}, sendfile := {}, openErrno := 0 }
  | .proxyReadWrite => { ans with spliceIn := {}, spliceOut := {}, sendfile := {}, openErrno := 0 }
  | .sslProxy => { ans with spliceIn := {}, spliceOut := {}, sendfile := {}, openErrno := 0 }
  | .sslFile =>
    { ans with write := {}, spliceIn := {}, spliceOut := {}, openErrno := 0, socketError := 0 }
  | _ =>
    { ans with
      read := {}, write := {}, spliceIn := {}, spliceOut := {}, sendfile := {}, openErrno := 0
      socketError := 0 }

/-- What is left out is not looked at. -/
theorem process_keep (e : Executor) (ans : Answers) (l r : Nat) (fd : Int) (events : Nat) :
    e.process ans l r fd events = e.process (keep e ans) l r fd events := by
  cases e <;> rfl

section
variable {e : Executor} {d : ExecutorData} {c : Calls}

theorem Settled.foundRead (h : Settled e d c) (s : Stray) :
    foundRead e c s = c.read.errno := by
  unfold StaleErrno.foundRead
  rw [if_neg (fun hr => h.read hr.1 hr.2), if_neg (fun hr => h.readUpstream hr.1 hr.2)]

theorem Settled.foundWrite (h : Settled e d c) (he : Writes e) (s : Stray) :
    foundWrite c s = c.write.errno :=
  if_neg (h.write he)

theorem Settled.foundSendfile (h : Settled e d c) (he : e = .file ∨ e = .sslFile) (s : Stray) :
    foundSendfile d c s = c.sendfile.errno :=
  if_neg (h.sendfile he)

theorem Settled.foundOpen (h : Settled e d c) (he : e = .request ∨ e = .sslRequest) (s : Stray) :
    foundOpen c s = c.openErrno :=
  if_neg (Int.not_lt.mpr (h.openFile he))

theorem Settled.foundSplice (h : Settled e d c) (he : e = .proxySplice) (s : Stray) :
    foundSpliceIn c s = c.spliceIn.errno ∧ foundSpliceOut c s = c.spliceOut.errno :=
  ⟨if_neg (h.spliceIn he), if_neg (Int.not_lt.mpr (h.spliceOut he))⟩

theorem Settled.foundSocketError (h : Settled e d c) (he : Writes e) (s : Stray) :
    foundSocketError c s = c.socketError := by
  unfold StaleErrno.foundSocketError
  rw [h.getsockopt he]

/-- Of the answers that the class has a use for, none depends on what was left over. -/
theorem Settled.keep_found (h : Settled e d c) (s : Stray) :
    keep e (found e d c s) = keep e c.toAnswers := by
  have hread := h.foundRead s
  cases e with
  | request =>
    have hopen := h.foundOpen (Or.inl rfl) s
    simp only [keep, found, hread, hopen]
  | sslRequest =>
    have hopen := h.foundOpen (Or.inr rfl) s
    simp only [keep, found, hopen]
  | file =>
    have hwrite := h.foundWrite (Or.inl rfl) s
    have hsend := h.foundSendfile (Or.inl rfl) s
    have hsocket := h.foundSocketError (Or.inl rfl) s
    simp only [keep, found, hwrite, hsend, hsocket]
  | sslFile =>
    have hsend := h.foundSendfile (Or.inr rfl) s
    simp only [keep, found, hread, hsend]
  | proxySplice =>
    have hwrite := h.foundWrite (Or.inr (Or.inl rfl)) s
    have hsocket := h.foundSocketError (Or.inr (Or.inl rfl)) s
    obtain ⟨hin, hout⟩ := h.foundSplice rfl s
    simp only [keep, found, hwrite, hsocket, hin, hout]
  | proxyReadWrite =>
    have hwrite := h.foundWrite (Or.inr (Or.inr (Or.inl rfl))) s
    have hsocket := h.foundSocketError (Or.inr (Or.inr (Or.inl rfl))) s
    simp only [keep, found, hread, hwrite, hsocket]
  | sslProxy =>
    have hwrite := h.foundWrite (Or.inr (Or.inr (Or.inr rfl))) s
    have hsocket := h.foundSocketError (Or.inr (Or.inr (Or.inr rfl))) s
    simp only [keep, found, hread, hwrite, hsocket]
  | newFd => rfl
  | server => rfl
  | sslServer => rfl

/-- A step whose calls settle `errno` does what it does. -/
theorem Settled.process (h : Settled e d c) (s : Stray) (l r : Nat) (fd : Int) (events : Nat) :
    e.process (found e d c s) l r fd events = e.process c.toAnswers l r fd events := by
  rw [process_keep e (found e d c s), h.keep_found s, ← process_keep]

end

/-! ## Two runs -/

/-- The step is settled where it is made. -/
def SettledAt (x : Steps) : Step → Prop
  | .process l r _ _ calls =>
    ∀ e, (x.world.data l r).pExecutor = some e → Settled e (x.world.data l r) calls
  | .elsewhere _ => True

/-- The steps of the first of two runs are settled. -/
def AllSettled (x : Steps) : List (Step × Stray × Stray) → Prop
  | [] => True
  | a :: rest =>
    SettledAt x a.1 ∧ ∀ x', step x (a.1, a.2.1) = some x' → AllSettled x' rest

theorem step_settled {x : Steps} {a : Step} (h : SettledAt x a) (s s' : Stray) :
    step x (a, s) = step x (a, s') := by
  cases a with
  | process l r fd events calls =>
    cases he : (x.world.data l r).pExecutor with
    | none => simp only [step, he]
    | some e =>
      have hsame : e.process (found e (x.world.data l r) calls s) l r fd events =
          e.process (found e (x.world.data l r) calls s') l r fd events :=
        ((h e he).process s l r fd events).trans ((h e he).process s' l r fd events).symm
      simp only [step, he, hsame]
  | elsewhere f => rfl

/-- Two runs with the same calls, whatever else is in `errno`, go the same way when all steps are
settled. -/
theorem run_settled (x : Steps) (as : List (Step × Stray × Stray)) (h : AllSettled x as) :
    Run.run step x (as.map (fun a => (a.1, a.2.1))) =
      Run.run step x (as.map (fun a => (a.1, a.2.2))) := by
  induction as generalizing x with
  | nil => rfl
  | cons a rest ih =>
    obtain ⟨hsettled, hrest⟩ := h
    have hstep := step_settled hsettled a.2.1 a.2.2
    rw [List.map_cons, List.map_cons]
    unfold Run.run
    rw [← hstep]
    cases hx : step x (a.1, a.2.1) with
    | none => rfl
    | some x' => exact ih x' (hrest x' hx)

/-! ## A request of one client -/

/-- A loop that was given the descriptor 5 of a client. -/
def acceptedWorld : World :=
  let w : World := { parameters := { rootFolder := [] }, kernel := Kernel.fresh.opened 5 true }
  match createRequestExecutorInternal {} 0 5 .request w with
  | some (_, w') => w'
  | none => w

def accepted : Steps := { world := acceptedWorld, results := [] }

/-- `read` returns -1 with an error code of its own. -/
def fails (errno : Nat) : Step :=
  .process 0 0 5 EPOLLIN { read := { bytes := none, errno := errno }, openFile := 6 }

theorem settled_fails {x : Steps} (h : (x.world.data 0 0).pExecutor = some .request)
    (errno : Nat) : SettledAt x (fails errno) := by
  intro e he
  obtain rfl : e = .request := Option.some.inj (he.symm.trans h)
  have hwrites : ¬ Writes .request := by decide
  exact
    { read := fun _ hnone => nomatch hnone
      write := fun hw => absurd hw hwrites
      sendfile := fun hsends => absurd hsends (by decide)
      openFile := fun _ => (by decide : (0 : Int) ≤ 6)
      readUpstream := fun hlogs => absurd hlogs (by decide)
      spliceIn := fun heq => nomatch heq
      spliceOut := fun heq => nomatch heq
      getsockopt := fun hw => absurd hw hwrites }

/-- The codes that are left over would turn the two results around. -/
theorem run_settled_fails :
    Run.run step accepted [(fails EAGAIN, { leftRead := EBADF }), (fails EBADF, {})] =
      Run.run step accepted
        [(fails EAGAIN, { leftRead := 0 }), (fails EBADF, { leftRead := EAGAIN })] ∧
    (Run.run step accepted [(fails EAGAIN, { leftRead := EBADF }), (fails EBADF, {})]).map
        (·.results) = some [.ok, .removeExecutorError] := by
  have hrequest : ((accepted.world.data 0 0).pExecutor = some .request) ∧
      (step accepted (fails EAGAIN, { leftRead := EBADF })).map
        (fun x => (x.world.data 0 0).pExecutor) = some (some .request) := by decide +kernel
  obtain ⟨hstart, hthen⟩ := hrequest
  refine ⟨run_settled accepted [(fails EAGAIN, { leftRead := EBADF }, { leftRead := 0 }),
    (fails EBADF, {}, { leftRead := EAGAIN })]
    ⟨settled_fails hstart EAGAIN, fun x' hx => ⟨settled_fails ?_ EBADF, fun _ _ => trivial⟩⟩, ?_⟩
  · rw [hx] at hthen
    exact Option.some.inj hthen
  · decide +kernel

/-- The client has closed its end, and `read` returns 0. -/
def disconnects : Step := .process 0 0 5 EPOLLIN { read := { bytes := some [] } }

/-- `GET / HTTP` with one header -/
def requestBytes : Bytes :=
  [71, 69, 84, 32, 47, 32, 72, 84, 84, 80, 13, 10, 65, 58, 32, 98, 13, 10, 13, 10]

/-- The file of the request is not there. -/
def requests : Step :=
  .process 0 0 5 EPOLLIN { read := { bytes := some requestBytes }, openErrno := ENOENT }

/-- What the executors return for the same calls depends on what `errno` held in front of `read`,
and on what the log does to it behind `open`. -/
theorem run_stale :
    (Run.run step accepted [(disconnects, { leftRead := 0 })]).map (·.results) =
        some [.removeExecutorError] ∧
      (Run.run step accepted [(disconnects, { leftRead := EAGAIN })]).map (·.results) =
        some [.ok] ∧
      (Run.run step accepted [(requests, { logOpen := none })]).map (·.results) = some [.ok] ∧
      (Run.run step accepted [(requests, { logOpen := some EBADF })]).map (·.results) =
        some [.removeExecutorError] := by
  decide +kernel

end StaleErrno
end EpollHttp
