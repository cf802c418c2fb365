import EpollHttp.ConfigLines
import EpollHttp.ServerParameters
import EpollHttp.PollLoop.Run

/-
`Server::start` on a loaded configuration, and the choice of a loop for a client.

`load` takes any number of threads.  `start` divides by it and indexes the array of the loops with
what remains.  Allocations of a size that is not negative succeed.
-/

namespace EpollHttp
namespace Server

open CString (intMax)
open Config (ascii stoi)

/-- `ServerParameters::load`: the file, and then the settings; none when -1 is returned. -/
def load (file : Option Bytes) : Option Config.ServerParameters :=
  match ConfigReader.configReadFile file ConfigMap.empty with
  | some (true, configMap) => Config.load configMap
  | _ => none

/-- What the calls of `start` answer: `log->init`, the set-up of SSL, `init` of a loop, and
`listenPort` for a value of `counter`. -/
structure StartAnswers where
  logUp : Bool := true
  sslUp : Bool := true
  loopUp : Nat → Bool := fun _ => true
  listens : Nat → Bool := fun _ => true

/-- One call of `listenPort`. -/
structure OpenedPort where
  loop : Int
  port : Int
  execType : ExecutorType
  deriving DecidableEq, Repr

inductive Start
  /-- A division by zero, or an index outside of `loops`. -/
  | undefined
  /-- An array of a negative size. -/
  | thrown
  /-- `stop` and -1. -/
  | failed
  | started (opened : List OpenedPort)
  deriving DecidableEq, Repr

/-- A loop over the configured ports, from a value of `counter` on. -/
def openPorts (a : StartAnswers) (threadCount : Int) (execType : ExecutorType) :
    Nat → List Int → Start
  | _, [] => .started []
  | counter, port :: ports =>
    if threadCount = 0 then .undefined
    else
      let loop := Int.tmod counter threadCount
      if loop < 0 ∨ threadCount ≤ loop then .undefined
      else if a.listens counter = false then .failed
      else
        match openPorts a threadCount execType (counter + 1) ports with
        | .started opened =>
          .started ({ loop := loop, port := port, execType := execType } :: opened)
        | other => other

/-- `load` leaves no `httpsPorts`, so they are given with the parameters. -/
def start (a : StartAnswers) (parameters : Config.ServerParameters) (httpsPorts : List Int) : Start :=
  if a.logUp = false then .failed
  else if httpsPorts ≠ [] ∧ a.sslUp = false then .failed
  else if parameters.threadCount < 0 then .thrown
  else if (List.range parameters.threadCount.toNat).all a.loopUp = false then .failed
  else
    match openPorts a parameters.threadCount .server 0 parameters.httpPorts with
    | .started http =>
      match openPorts a parameters.threadCount .serverSsl parameters.httpPorts.length
          httpsPorts with
      | .started https => .started (http ++ https)
      | other => other
    | other => other

/-- The index that `createRequestExecutor` chooses when the loops have so many descriptors. -/
def minIndex (parameters : Config.ServerParameters) (counts : Nat → Int) : Nat :=
  minIndexFrom counts parameters.threadCount.toNat 0 intMax 0

/-! ## What start-up is for -/

/-- Every call of the start-up succeeds. -/
def StartAnswers.Good (a : StartAnswers) : Prop :=
  a.logUp = true ∧ a.sslUp = true ∧ (∀ i, a.loopUp i = true) ∧ ∀ counter, a.listens counter = true

/-- The arithmetic of the start-up is defined, each configured port is opened once, on a loop, and
the loop for a client is one with the fewest descriptors. -/
structure StartsWell (parameters : Config.ServerParameters) (httpsPorts : List Int) : Prop where
  defined : ∀ a, start a parameters httpsPorts ≠ .undefined
  comesUp : ∀ a, StartAnswers.Good a → ∃ opened, start a parameters httpsPorts = .started opened
  opens : ∀ a opened, start a parameters httpsPorts = .started opened →
    opened.map (fun o => (o.port, o.execType)) =
        parameters.httpPorts.map (fun port => (port, .server)) ++
          httpsPorts.map (fun port => (port, .serverSsl)) ∧
      ∀ o ∈ opened, 0 ≤ o.loop ∧ o.loop < parameters.threadCount
  chooses : ∀ counts : Nat → Int, (∀ i, counts i ≤ intMax) →
    (minIndex parameters counts : Int) < parameters.threadCount ∧
      ∀ i : Nat, (i : Int) < parameters.threadCount →
        counts (minIndex parameters counts) ≤ counts i

section
variable {a : StartAnswers} {threadCount : Int} {execType : ExecutorType}

/-- One port takes one index, which is inside of the array when that has a loop. -/
theorem openPorts_pos (h : 0 < threadCount) (counter : Nat) (ports : List Int) :
    openPorts a threadCount execType counter ports = .failed ∨
      ∃ opened, openPorts a threadCount execType counter ports = .started opened ∧
        opened.map (fun o => (o.port, o.execType)) = ports.map (fun port => (port, execType)) ∧
        ∀ o ∈ opened, 0 ≤ o.loop ∧ o.loop < threadCount := by
  induction ports generalizing counter with
  | nil => exact Or.inr ⟨[], rfl, rfl, fun o ho => absurd ho List.not_mem_nil⟩
  | cons port ports ih =>
    have hge : 0 ≤ Int.tmod counter threadCount := Int.tmod_nonneg _ (Int.natCast_nonneg _)
    have hlt : Int.tmod counter threadCount < threadCount := Int.tmod_lt_of_pos _ h
    unfold openPorts
    rw [if_neg (by omega)]
    dsimp only
    rw [if_neg (by omega)]
    cases a.listens counter with
    | false => exact Or.inl rfl
    | true =>
      rw [if_neg (by decide)]
      rcases ih (counter + 1) with hfailed | ⟨opened, hopened, hports, hloops⟩
      · rw [hfailed]
        exact Or.inl rfl
      · rw [hopened]
        refine Or.inr ⟨_, rfl, ?_, fun o ho => ?_⟩
        · rw [List.map_cons, List.map_cons, hports]
        · rcases List.mem_cons.mp ho with heq | hmem
          · rw [heq]
            exact ⟨hge, hlt⟩
          · exact hloops o hmem

theorem openPorts_listens (h : 0 < threadCount) (hlistens : ∀ counter, a.listens counter = true)
    (counter : Nat) (ports : List Int) :
    openPorts a threadCount execType counter ports ≠ .failed := by
  induction ports generalizing counter with
  | nil => exact fun hfalse => Start.noConfusion hfalse
  | cons port ports ih =>
    have hge : 0 ≤ Int.tmod counter threadCount := Int.tmod_nonneg _ (Int.natCast_nonneg _)
    have hlt : Int.tmod counter threadCount < threadCount := Int.tmod_lt_of_pos _ h
    unfold openPorts
    rw [if_neg (by omega)]
    dsimp only
    rw [if_neg (by omega), hlistens counter, if_neg (by decide)]
    have hrest := ih (counter + 1)
    split
    · exact fun hfalse => Start.noConfusion hfalse
    · exact hrest

end

/-! ## The choice of a loop -/

/-- The loop keeps the smallest count that it has seen, and where. -/
theorem minIndexFrom_spec (counts : Nat → Int) (n i : Nat) (minPollFds : Int) (index : Nat) :
    (minIndexFrom counts n i minPollFds index = index ∧
        ∀ k, i ≤ k → k < i + n → minPollFds ≤ counts k) ∨
      (i ≤ minIndexFrom counts n i minPollFds index ∧
        minIndexFrom counts n i minPollFds index < i + n ∧
        counts (minIndexFrom counts n i minPollFds index) < minPollFds ∧
        ∀ k, i ≤ k → k < i + n → counts (minIndexFrom counts n i minPollFds index) ≤ counts k) := by
  induction n generalizing i minPollFds index with
  | zero => exact Or.inl ⟨rfl, fun k hk hki => by omega⟩
  | succ n ih =>
    unfold minIndexFrom
    split
    · rename_i hless
      rcases ih (i + 1) (counts i) i with ⟨hsame, hall⟩ | ⟨hge, hlt, hsmaller, hall⟩
      · rw [hsame]
        refine Or.inr ⟨Nat.le_refl i, by omega, hless, fun k hk hki => ?_⟩
        rcases Nat.eq_or_lt_of_le hk with heq | hlater
        · rw [heq]
        · exact hall k hlater (by omega)
      · refine Or.inr ⟨by omega, by omega, by omega, fun k hk hki => ?_⟩
        rcases Nat.eq_or_lt_of_le hk with heq | hlater
        · rw [← heq]
          exact Int.le_of_lt hsmaller
        · exact hall k hlater (by omega)
    · rename_i hnot
      rcases ih (i + 1) minPollFds index with ⟨hsame, hall⟩ | ⟨hge, hlt, hsmaller, hall⟩
      · refine Or.inl ⟨hsame, fun k hk hki => ?_⟩
        rcases Nat.eq_or_lt_of_le hk with heq | hlater
        · rw [← heq]
          exact Int.not_lt.mp hnot
        · exact hall k hlater (by omega)
      · refine Or.inr ⟨by omega, by omega, hsmaller, fun k hk hki => ?_⟩
        rcases Nat.eq_or_lt_of_le hk with heq | hlater
        · rw [← heq]
          omega
        · exact hall k hlater (by omega)

theorem minIndex_least {parameters : Config.ServerParameters} (h : 0 < parameters.threadCount)
    {counts : Nat → Int} (hint : ∀ i, counts i ≤ intMax) :
    (minIndex parameters counts : Int) < parameters.threadCount ∧
      ∀ i : Nat, (i : Int) < parameters.threadCount →
        counts (minIndex parameters counts) ≤ counts i := by
  unfold minIndex
  rcases minIndexFrom_spec counts parameters.threadCount.toNat 0 intMax 0 with
    ⟨hsame, hall⟩ | ⟨_, hlt, _, hall⟩
  · -- Every loop has the greatest count, so the first one will do.
    rw [hsame]
    refine ⟨h, fun i hi => ?_⟩
    have hgreatest := hall i (Nat.zero_le i) (by omega)
    have hfirst := hint 0
    omega
  · exact ⟨by omega, fun i hi => hall i (Nat.zero_le i) (by omega)⟩

/-! ## Start-up with at least one thread -/

section
variable {parameters : Config.ServerParameters} (h : 0 < parameters.threadCount)
include h

theorem start_pos (a : StartAnswers) (httpsPorts : List Int) :
    start a parameters httpsPorts = .failed ∨
      ∃ opened, start a parameters httpsPorts = .started opened ∧
        opened.map (fun o => (o.port, o.execType)) =
          parameters.httpPorts.map (fun port => (port, .server)) ++
            httpsPorts.map (fun port => (port, .serverSsl)) ∧
        ∀ o ∈ opened, 0 ≤ o.loop ∧ o.loop < parameters.threadCount := by
  unfold start
  split
  · exact Or.inl rfl
  split
  · exact Or.inl rfl
  rw [if_neg (by omega)]
  split
  · exact Or.inl rfl
  rcases openPorts_pos h 0 parameters.httpPorts with hfailed | ⟨http, hhttp, hports, hloops⟩
  · rw [hfailed]
    exact Or.inl rfl
  rw [hhttp]
  dsimp only
  rcases openPorts_pos h parameters.httpPorts.length httpsPorts with
    hfailed | ⟨https, hhttps, hports', hloops'⟩
  · rw [hfailed]
    exact Or.inl rfl
  rw [hhttps]
  refine Or.inr ⟨http ++ https, rfl, ?_, fun o ho => ?_⟩
  · rw [List.map_append, hports, hports']
  · rcases List.mem_append.mp ho with hmem | hmem
    · exact hloops o hmem
    · exact hloops' o hmem

theorem start_good {a : StartAnswers} (ha : StartAnswers.Good a) (httpsPorts : List Int) :
    start a parameters httpsPorts ≠ .failed := by
  obtain ⟨hlog, hssl, hloops, hlistens⟩ := ha
  have hall : (List.range parameters.threadCount.toNat).all a.loopUp = true :=
    List.all_eq_true.mpr (fun i _ => hloops i)
  have hhttp : openPorts a parameters.threadCount .server 0 parameters.httpPorts ≠ .failed :=
    openPorts_listens h hlistens 0 parameters.httpPorts
  have hhttps : openPorts a parameters.threadCount .serverSsl parameters.httpPorts.length
      httpsPorts ≠ .failed := openPorts_listens h hlistens parameters.httpPorts.length httpsPorts
  unfold start
  rw [if_neg (by simp [hlog]), if_neg (by simp [hssl]), if_neg (by omega), if_neg (by simp [hall])]
  split
  · split
    · exact fun hfalse => Start.noConfusion hfalse
    · exact hhttps
  · exact hhttp

theorem startsWell_of_pos (httpsPorts : List Int) : StartsWell parameters httpsPorts := by
  refine ⟨fun a hundefined => ?_, fun a ha => ?_, fun a opened hstart => ?_,
    fun counts hint => minIndex_least h hint⟩
  · rcases start_pos h a httpsPorts with hfailed | ⟨opened, hopened, _⟩
    · exact Start.noConfusion (hundefined.symm.trans hfailed)
    · exact Start.noConfusion (hundefined.symm.trans hopened)
  · rcases start_pos h a httpsPorts with hfailed | ⟨opened, hopened, _⟩
    · exact absurd hfailed (start_good h ha httpsPorts)
    · exact ⟨opened, hopened⟩
  · rcases start_pos h a httpsPorts with hfailed | ⟨opened', hopened, hports⟩
    · exact Start.noConfusion (hstart.symm.trans hfailed)
    · rw [Start.started.inj (hstart.symm.trans hopened)]
      exact hports

end

/-! ## Start-up without a thread -/

section
variable {parameters : Config.ServerParameters} {a : StartAnswers}

/-- The first port divides by zero. -/
theorem start_zero (h : parameters.threadCount = 0) (hports : parameters.httpPorts ≠ [])
    (ha : StartAnswers.Good a) (httpsPorts : List Int) :
    start a parameters httpsPorts = .undefined := by
  obtain ⟨hlog, hssl, _, _⟩ := ha
  obtain ⟨port, ports, hcons⟩ := List.exists_cons_of_ne_nil hports
  have hfirst : openPorts a 0 .server 0 (port :: ports) = .undefined := by
    unfold openPorts
    rw [if_pos rfl]
  unfold start
  rw [if_neg (by simp [hlog]), if_neg (by simp [hssl]), h, hcons, hfirst, if_neg (by decide)]
  rfl

/-- No port is opened, for the array of the loops is not made. -/
theorem start_negative (h : parameters.threadCount < 0) (ha : StartAnswers.Good a)
    (httpsPorts : List Int) : start a parameters httpsPorts = .thrown := by
  obtain ⟨hlog, hssl, _, _⟩ := ha
  unfold start
  rw [if_neg (by simp [hlog]), if_neg (by simp [hssl]), if_pos h]

end

theorem startsWell_iff {parameters : Config.ServerParameters} (hports : parameters.httpPorts ≠ [])
    (httpsPorts : List Int) :
    StartsWell parameters httpsPorts ↔ 0 < parameters.threadCount := by
  constructor
  · intro h
    have hgood : StartAnswers.Good {} := ⟨rfl, rfl, fun _ => rfl, fun _ => rfl⟩
    obtain ⟨opened, hopened⟩ := h.comesUp {} hgood
    by_contra hnot
    by_cases hzero : parameters.threadCount = 0
    · exact Start.noConfusion ((start_zero hzero hports hgood httpsPorts).symm.trans hopened)
    · have hneg : parameters.threadCount < 0 := by omega
      exact Start.noConfusion ((start_negative hneg hgood httpsPorts).symm.trans hopened)
  · intro h
    exact startsWell_of_pos h httpsPorts

/-! ## What `load` lets through -/

theorem load_file {text : Bytes} {parameters : Config.ServerParameters}
    (h : load (some text) = some parameters) :
    ∃ m, ConfigReader.configReadFile (some text) ConfigMap.empty = some (true, m) ∧
      Config.load m = some parameters := by
  unfold load at h
  split at h
  · rename_i m hread
    exact ⟨m, hread, h⟩
  · exact absurd h.symm (Option.some_ne_none _)

/-- The number of threads is that of the file, or one. -/
theorem threadCount_pos_iff {m : ConfigMap} {parameters : Config.ServerParameters}
    (h : Config.load m = some parameters) : 0 < parameters.threadCount ↔
      ∀ value count, m.find (ascii "threadCount") = some value → stoi value = some count →
        0 < count := by
  have hloaded := (Config.load_some h).threadCount
  unfold Config.getOptionalInt at hloaded
  constructor
  · intro hpos value count hfind hcount
    rw [hfind] at hloaded
    rw [Option.some.inj (hcount.symm.trans hloaded)]
    exact hpos
  · intro hall
    cases hfind : m.find (ascii "threadCount") with
    | none =>
      rw [hfind] at hloaded
      rw [← Option.some.inj hloaded]
      decide
    | some value =>
      rw [hfind] at hloaded
      exact hall value _ hfind hloaded

/-- Start-up on a file that `load` accepts is sound exactly when the file asks for at least one
thread, or does not say how many. -/
theorem load_startsWell_iff {text : Bytes} {parameters : Config.ServerParameters}
    (h : load (some text) = some parameters) (httpsPorts : List Int) :
    StartsWell parameters httpsPorts ↔
      ∀ m value count,
        ConfigReader.configReadFile (some text) ConfigMap.empty = some (true, m) →
        m.find (ascii "threadCount") = some value → stoi value = some count → 0 < count := by
  obtain ⟨m, hread, hload⟩ := load_file h
  rw [startsWell_iff (Config.load_some hload).httpPorts_ne, threadCount_pos_iff hload]
  constructor
  · intro hall m' value count hread' hfind hcount
    obtain rfl : m = m' := (Prod.mk.inj (Option.some.inj (hread.symm.trans hread'))).2
    exact hall value count hfind hcount
  · intro hall value count hfind hcount
    exact hall m value count hread hfind hcount

/-- A file with one port, and with a number of threads. -/
def onePort (threadCount : String) : Bytes :=
  ascii "threadCount=" ++ ascii threadCount ++ ascii "\nhttpPort0=8080\n"

theorem onePort_two : ∃ parameters, load (some (onePort "2")) = some parameters ∧
    (StartsWell parameters [] ↔
      ∀ m value count,
        ConfigReader.configReadFile (some (onePort "2")) ConfigMap.empty = some (true, m) →
        m.find (ascii "threadCount") = some value → stoi value = some count → 0 < count) := by
  have hload : (load (some (onePort "2"))).isSome := by decide +kernel
  obtain ⟨parameters, hparameters⟩ := Option.isSome_iff_exists.mp hload
  exact ⟨parameters, hparameters, load_startsWell_iff hparameters []⟩

/-- Without a thread, the first port is opened on the loop `0 % 0`. -/
theorem onePort_none : ∃ parameters, load (some (onePort "0")) = some parameters ∧
    start {} parameters [] = .undefined ∧ ¬ StartsWell parameters [] := by
  have hload : (load (some (onePort "0"))).isSome := by decide +kernel
  obtain ⟨parameters, hparameters⟩ := Option.isSome_iff_exists.mp hload
  have hstart : (load (some (onePort "0"))).map (fun parameters => start {} parameters []) =
      some .undefined := by decide +kernel
  rw [hparameters] at hstart
  have hundefined : start {} parameters [] = .undefined := Option.some.inj hstart
  exact ⟨parameters, hparameters, hundefined, fun hwell => hwell.defined {} hundefined⟩

end Server
end EpollHttp
