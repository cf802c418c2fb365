import EpollHttp.ConfigLines
import EpollHttp.ExecutorData

/-
`ServerParameters::load` behind `configReadFile`.

Every setting has a key of its own, or numbered keys of its own, and a default.  At most a hundred
ports and a hundred proxies are looked up.
-/

namespace EpollHttp
namespace Config

open CString (isDigit strtol cString intMax)

/-- The bytes of a name in the source. -/
def ascii (s : String) : Bytes := s.toList.map (fun c => UInt8.ofNat c.toNat)

/-- `std::to_string(n)` -/
def toString (n : Nat) : Bytes := (Nat.toDigits 10 n).map (fun c => UInt8.ofNat c.toNat)

def intMin : Int := -2 ^ 31

/-- `std::stoi(s)`: none for an exception, without a digit or outside the range of `int`. -/
def stoi (s : Bytes) : Option Int :=
  let digits :=
    match (cString s).dropWhile CString.isSpace with
    | [] => []
    | sign :: rest => if sign = 45 ∨ sign = 43 then rest else sign :: rest
  let value := strtol (cString s)
  if digits.head?.any isDigit ∧ intMin ≤ value ∧ value ≤ intMax then some value else none

inductive LogLevel
  | debug
  | info
  | warning
  | error
  deriving DecidableEq, Repr

inductive LogType
  | stdout
  | mmap
  deriving DecidableEq, Repr

structure ProxyParameters where
  urlPrefix : Bytes := []
  address : Bytes := []
  port : Int := 0
  connectionType : Nat := ConnectionType.none
  socketType : SocketType := .none
  deriving DecidableEq, Repr

structure ServerParameters where
  rootFolder : Bytes := ascii "./data"
  logFolder : Bytes := ascii "./log"
  threadCount : Int := 1
  executorTimeoutMillis : Int := 10000
  logLevel : LogLevel := .info
  logType : LogType := .stdout
  logFileSize : Int := 1024 * 1024
  logArchiveCount : Int := 10
  logStats : Bool := true
  httpPorts : List Int := []
  proxies : List ProxyParameters := []
  deriving DecidableEq, Repr

def setDefaults : ServerParameters := {}

/-- The parameter behind the call; none when false is returned. -/
def getOptionalInt (params : ConfigMap) (paramName : Bytes) (param : Int) : Option Int :=
  match params.find paramName with
  | some value => stoi value
  | none => some param

def levelOf (value : Bytes) : Option LogLevel :=
  if value = ascii "debug" then some .debug
  else if value = ascii "info" then some .info
  else if value = ascii "warning" then some .warning
  else if value = ascii "error" then some .error
  else none

def typeOf (value : Bytes) : Option LogType :=
  if value = ascii "stdout" then some .stdout
  else if value = ascii "mmap" then some .mmap
  else none

def socketTypeOf (value : Bytes) : Option SocketType :=
  if value = ascii "tcp" then some .tcp
  else if value = ascii "unix" then some .unix
  else none

/-- The branch on a key that may be absent. -/
def getOptional {α : Type} (convert : Bytes → Option α) (params : ConfigMap) (paramName : Bytes)
    (param : α) : Option α :=
  match params.find paramName with
  | some value => convert value
  | none => some param

def httpPortKey (portNum : Nat) : Bytes := ascii "httpPort" ++ toString portNum

def proxyKey (proxyNum : Nat) (field : String) : Bytes :=
  ascii "proxy" ++ toString proxyNum ++ ascii field

/-- The loop over `portNum`, for a number of rounds. -/
def readHttpPorts (configMap : ConfigMap) : Nat → Nat → Option (List Int)
  | 0, _ => some []
  | rounds + 1, portNum => do
    let port ← getOptionalInt configMap (httpPortKey portNum) (-1)
    if port < 0 then some []
    else
      let httpPorts ← readHttpPorts configMap rounds (portNum + 1)
      some (port :: httpPorts)

/-- The rest of the loop body, behind the test of the port. -/
def readProxy (configMap : ConfigMap) (proxyNum : Nat) (port : Int) : Option ProxyParameters := do
  let address ← configMap.find (proxyKey proxyNum ".address")
  let urlPrefix ← configMap.find (proxyKey proxyNum ".prefix")
  let socketType ← getOptional socketTypeOf configMap (proxyKey proxyNum ".socket") .tcp
  some { urlPrefix, address, port, connectionType := ConnectionType.clear, socketType }

def readProxies (configMap : ConfigMap) : Nat → Nat → Option (List ProxyParameters)
  | 0, _ => some []
  | rounds + 1, proxyNum => do
    let port ← getOptionalInt configMap (proxyKey proxyNum ".port") ({} : ProxyParameters).port
    if port ≤ 0 then some []
    else
      let proxy ← readProxy configMap proxyNum port
      let proxies ← readProxies configMap rounds (proxyNum + 1)
      some (proxy :: proxies)

/-- The parameters behind the call; none when -1 is returned.  The key `logFolder` assigns to
`rootFolder`. -/
def load (configMap : ConfigMap) : Option ServerParameters := do
  let params := setDefaults
  let threadCount ← getOptionalInt configMap (ascii "threadCount") params.threadCount
  let executorTimeoutMillis ←
    getOptionalInt configMap (ascii "executorTimeoutMillis") params.executorTimeoutMillis
  let logFileSize ← getOptionalInt configMap (ascii "logFileSize") params.logFileSize
  let logArchiveCount ← getOptionalInt configMap (ascii "logArchiveCount") params.logArchiveCount
  let rootFolder := (configMap.find (ascii "rootFolder")).getD params.rootFolder
  let rootFolder := (configMap.find (ascii "logFolder")).getD rootFolder
  let logLevel ← getOptional levelOf configMap (ascii "logLevel") params.logLevel
  let logType ← getOptional typeOf configMap (ascii "logType") params.logType
  let httpPorts ← readHttpPorts configMap 100 0
  if httpPorts.length < 1 then none
  else
    let proxies ← readProxies configMap 100 0
    some { params with
      threadCount, executorTimeoutMillis, logFileSize, logArchiveCount, rootFolder, logLevel,
      logType, httpPorts, proxies }

/-! ## What was loaded -/

/-- The fields of the result and the look-ups that they come from. -/
structure Loaded (m : ConfigMap) (p : ServerParameters) : Prop where
  threadCount : getOptionalInt m (ascii "threadCount") 1 = some p.threadCount
  executorTimeoutMillis :
    getOptionalInt m (ascii "executorTimeoutMillis") 10000 = some p.executorTimeoutMillis
  logFileSize : getOptionalInt m (ascii "logFileSize") (1024 * 1024) = some p.logFileSize
  logArchiveCount : getOptionalInt m (ascii "logArchiveCount") 10 = some p.logArchiveCount
  rootFolder : p.rootFolder = (m.find (ascii "logFolder")).getD
    ((m.find (ascii "rootFolder")).getD (ascii "./data"))
  logFolder : p.logFolder = ascii "./log"
  logLevel : getOptional levelOf m (ascii "logLevel") .info = some p.logLevel
  logType : getOptional typeOf m (ascii "logType") .stdout = some p.logType
  httpPorts : readHttpPorts m 100 0 = some p.httpPorts
  httpPorts_ne : p.httpPorts ≠ []
  proxies : readProxies m 100 0 = some p.proxies

theorem load_some {m : ConfigMap} {p : ServerParameters} (h : load m = some p) : Loaded m p := by
  unfold load at h
  simp only [Option.bind_eq_bind, Option.bind_eq_some_iff] at h
  obtain ⟨threadCount, hthread, timeout, htimeout, fileSize, hfile, archives, harchives,
    level, hlevel, type, htype, ports, hports, h⟩ := h
  split at h
  · simp at h
  · rename_i hlen
    obtain ⟨proxies, hproxies, h⟩ := Option.bind_eq_some_iff.mp h
    obtain rfl := Option.some.inj h
    exact ⟨hthread, htimeout, hfile, harchives, rfl, rfl, hlevel, htype, hports,
      fun hnil => hlen (by rw [show ports = [] from hnil]; decide), hproxies⟩

/-! ## The reference -/

/-- The converted value of a key, or the default when the key is absent. -/
def IsValue {α : Type} (convert : Bytes → Option α) (default : α) (found : Option Bytes) (x : α) :
    Prop :=
  match found with
  | some value => convert value = some x
  | none => x = default

/-- The items `item 0`, `item 1`, ... up to the first number that stops, or up to a limit. -/
structure Numbered {α : Type} (item : Nat → Option α) (stops : Nat → Prop) (limit : Option Nat)
    (l : List α) : Prop where
  items : ∀ i x, l[i]? = some x → item i = some x
  ends : stops l.length ∨ some l.length = limit
  bounded : ∀ n, limit = some n → l.length ≤ n

/-- The value of a key that is there and above a bound. -/
def valueAbove (m : ConfigMap) (key : Bytes) (bound : Int) : Option Int :=
  ((m.find key).bind stoi).filter (fun x => bound < x)

/-- The key is absent, or its value is not above a bound. -/
def NotAbove (m : ConfigMap) (key : Bytes) (bound : Int) : Prop :=
  m.find key = none ∨ ∃ value x, m.find key = some value ∧ stoi value = some x ∧ x ≤ bound

def httpPort (m : ConfigMap) (portNum : Nat) : Option Int := valueAbove m (httpPortKey portNum) (-1)

def proxy (m : ConfigMap) (proxyNum : Nat) : Option ProxyParameters :=
  (valueAbove m (proxyKey proxyNum ".port") 0).bind (readProxy m proxyNum)

/-- The field-wise reference but for the two folders. -/
structure Settings (limit : Option Nat) (m : ConfigMap) (p : ServerParameters) : Prop where
  threadCount : IsValue stoi 1 (m.find (ascii "threadCount")) p.threadCount
  executorTimeoutMillis :
    IsValue stoi 10000 (m.find (ascii "executorTimeoutMillis")) p.executorTimeoutMillis
  logFileSize : IsValue stoi (1024 * 1024) (m.find (ascii "logFileSize")) p.logFileSize
  logArchiveCount : IsValue stoi 10 (m.find (ascii "logArchiveCount")) p.logArchiveCount
  logLevel : IsValue levelOf .info (m.find (ascii "logLevel")) p.logLevel
  logType : IsValue typeOf .stdout (m.find (ascii "logType")) p.logType
  httpPorts : Numbered (httpPort m) (fun i => NotAbove m (httpPortKey i) (-1)) limit p.httpPorts
  proxies : Numbered (proxy m) (fun i => NotAbove m (proxyKey i ".port") 0) limit p.proxies

structure Folders (m : ConfigMap) (p : ServerParameters) : Prop where
  rootFolder : IsValue some (ascii "./data") (m.find (ascii "rootFolder")) p.rootFolder
  logFolder : IsValue some (ascii "./log") (m.find (ascii "logFolder")) p.logFolder

/-- The field-wise reference. -/
structure Reference (m : ConfigMap) (p : ServerParameters) : Prop where
  settings : Settings none m p
  folders : Folders m p

/-- The key `logFolder` is absent, or both folders are the default of the log folder anyway. -/
def FolderKeys (m : ConfigMap) : Prop :=
  m.find (ascii "logFolder") = none ∨
    (m.find (ascii "logFolder") = some (ascii "./log") ∧
      (m.find (ascii "rootFolder")).getD (ascii "./data") = ascii "./log")

/-- Among the ports with a number up to 100 there is one that ends the list, and so there is among
the proxies. -/
structure ListsEnd (m : ConfigMap) : Prop where
  httpPorts : ∃ i ≤ 100, NotAbove m (httpPortKey i) (-1)
  proxies : ∃ i ≤ 100, NotAbove m (proxyKey i ".port") 0

inductive Setting
  | rootFolder
  | logFolder
  | threadCount
  | executorTimeoutMillis
  | logFileSize
  | logArchiveCount
  | logLevel
  | logType
  | httpPorts
  | proxies
  deriving DecidableEq

/-- What the keys of a setting begin with. -/
def Setting.stem : Setting → Bytes
  | .rootFolder => ascii "rootFolder"
  | .logFolder => ascii "logFolder"
  | .threadCount => ascii "threadCount"
  | .executorTimeoutMillis => ascii "executorTimeoutMillis"
  | .logFileSize => ascii "logFileSize"
  | .logArchiveCount => ascii "logArchiveCount"
  | .logLevel => ascii "logLevel"
  | .logType => ascii "logType"
  | .httpPorts => ascii "httpPort"
  | .proxies => ascii "proxy"

/-- The keys of a setting. -/
def Setting.Owns : Setting → Bytes → Prop
  | .httpPorts, key => ∃ n, key = httpPortKey n
  | .proxies, key =>
    ∃ n, ∃ field ∈ [".port", ".address", ".prefix", ".socket"], key = proxyKey n field
  | s, key => key = s.stem

/-- Two results agree in a setting. -/
def Setting.Same (p p' : ServerParameters) : Setting → Prop
  | .rootFolder => p.rootFolder = p'.rootFolder
  | .logFolder => p.logFolder = p'.logFolder
  | .threadCount => p.threadCount = p'.threadCount
  | .executorTimeoutMillis => p.executorTimeoutMillis = p'.executorTimeoutMillis
  | .logFileSize => p.logFileSize = p'.logFileSize
  | .logArchiveCount => p.logArchiveCount = p'.logArchiveCount
  | .logLevel => p.logLevel = p'.logLevel
  | .logType => p.logType = p'.logType
  | .httpPorts => p.httpPorts = p'.httpPorts
  | .proxies => p.proxies = p'.proxies

/-- The maps agree on all keys but those of `s`. -/
def DifferOnly (s : Setting) (m m' : ConfigMap) : Prop :=
  ∀ key, ¬ s.Owns key → m.find key = m'.find key

/-! ## Each setting by its keys -/

section
variable {m : ConfigMap}

theorem isValue_of_getOptional {α : Type} {convert : Bytes → Option α} {default x : α}
    {key : Bytes} (h : getOptional convert m key default = some x) :
    IsValue convert default (m.find key) x := by
  unfold getOptional at h
  unfold IsValue
  cases hfind : m.find key with
  | some value =>
    rw [hfind] at h
    exact h
  | none =>
    rw [hfind] at h
    exact (Option.some.inj h).symm

theorem isValue_of_getOptionalInt {default x : Int} {key : Bytes}
    (h : getOptionalInt m key default = some x) : IsValue stoi default (m.find key) x :=
  isValue_of_getOptional h

/-- An int that was read is above the bound, or stops the loop; its default stops it too. -/
theorem getOptionalInt_cases {key : Bytes} {bound x : Int}
    (h : getOptionalInt m key bound = some x) :
    (bound < x ∧ valueAbove m key bound = some x) ∨ (x ≤ bound ∧ NotAbove m key bound) := by
  unfold getOptionalInt at h
  unfold valueAbove NotAbove
  cases hfind : m.find key with
  | none =>
    rw [hfind] at h
    exact Or.inr ⟨Int.le_of_eq (Option.some.inj h).symm, Or.inl rfl⟩
  | some value =>
    rw [hfind] at h
    have hvalue : stoi value = some x := h
    by_cases hlt : bound < x
    · refine Or.inl ⟨hlt, ?_⟩
      rw [Option.bind_some, hvalue]
      exact Option.filter_some_pos (by simpa using hlt)
    · exact Or.inr ⟨Int.not_lt.mp hlt, Or.inr ⟨value, x, rfl, hvalue, Int.not_lt.mp hlt⟩⟩

end

theorem Numbered.nil {α : Type} {item : Nat → Option α} {stops : Nat → Prop} {n : Nat}
    (h : stops 0 ∨ n = 0) : Numbered item stops (some n) [] where
  items := fun i x hx => by simp at hx
  ends := h.imp id (fun h => by rw [h]; rfl)
  bounded := fun _ _ => Nat.zero_le _

theorem Numbered.cons {α : Type} {item : Nat → Option α} {stops : Nat → Prop} {n : Nat} {x : α}
    {l : List α} (hx : item 0 = some x)
    (hl : Numbered (fun i => item (i + 1)) (fun i => stops (i + 1)) (some n) l) :
    Numbered item stops (some (n + 1)) (x :: l) where
  items := fun i y hy => by
    cases i with
    | zero => exact hx.trans hy
    | succ i => exact hl.items i y hy
  ends := hl.ends.imp id (fun h => by rw [List.length_cons, Option.some.inj h])
  bounded := fun k hk => by
    have hle := hl.bounded n rfl
    rw [← Option.some.inj hk, List.length_cons]
    omega

/-- The loop from `portNum` on. -/
theorem readHttpPorts_numbered {m : ConfigMap} {rounds portNum : Nat} {ports : List Int}
    (h : readHttpPorts m rounds portNum = some ports) :
    Numbered (fun i => httpPort m (portNum + i))
      (fun i => NotAbove m (httpPortKey (portNum + i)) (-1)) (some rounds) ports := by
  induction rounds generalizing portNum ports with
  | zero =>
    obtain rfl := Option.some.inj h
    exact .nil (Or.inr rfl)
  | succ rounds ih =>
    unfold readHttpPorts at h
    obtain ⟨port, hport, h⟩ := Option.bind_eq_some_iff.mp h
    rcases getOptionalInt_cases hport with ⟨hlt, hvalue⟩ | ⟨hle, hstops⟩
    · rw [if_neg (by omega)] at h
      obtain ⟨rest, hrest, h⟩ := Option.bind_eq_some_iff.mp h
      obtain rfl := Option.some.inj h
      refine .cons hvalue ?_
      have htail := ih hrest
      simpa only [Nat.add_assoc, Nat.add_comm 1] using htail
    · rw [if_pos (by omega)] at h
      obtain rfl := Option.some.inj h
      exact .nil (Or.inl hstops)

theorem readProxies_numbered {m : ConfigMap} {rounds proxyNum : Nat}
    {proxies : List ProxyParameters} (h : readProxies m rounds proxyNum = some proxies) :
    Numbered (fun i => proxy m (proxyNum + i))
      (fun i => NotAbove m (proxyKey (proxyNum + i) ".port") 0) (some rounds) proxies := by
  induction rounds generalizing proxyNum proxies with
  | zero =>
    obtain rfl := Option.some.inj h
    exact .nil (Or.inr rfl)
  | succ rounds ih =>
    unfold readProxies at h
    obtain ⟨port, hport, h⟩ := Option.bind_eq_some_iff.mp h
    rcases getOptionalInt_cases hport with ⟨hlt, hvalue⟩ | ⟨hle, hstops⟩
    · rw [if_neg (Int.not_le.mpr hlt)] at h
      obtain ⟨first, hfirst, h⟩ := Option.bind_eq_some_iff.mp h
      obtain ⟨rest, hrest, h⟩ := Option.bind_eq_some_iff.mp h
      obtain rfl := Option.some.inj h
      have hitem : proxy m (proxyNum + 0) = some first := by
        unfold proxy
        rw [Nat.add_zero, show valueAbove m _ 0 = some port from hvalue]
        exact hfirst
      refine .cons hitem ?_
      have htail := ih hrest
      simpa only [Nat.add_assoc, Nat.add_comm 1] using htail
    · rw [if_pos hle] at h
      obtain rfl := Option.some.inj h
      exact .nil (Or.inl hstops)

theorem Loaded.settings {m : ConfigMap} {p : ServerParameters} (h : Loaded m p) :
    Settings (some 100) m p where
  threadCount := isValue_of_getOptionalInt h.threadCount
  executorTimeoutMillis := isValue_of_getOptionalInt h.executorTimeoutMillis
  logFileSize := isValue_of_getOptionalInt h.logFileSize
  logArchiveCount := isValue_of_getOptionalInt h.logArchiveCount
  logLevel := isValue_of_getOptional h.logLevel
  logType := isValue_of_getOptional h.logType
  httpPorts := by simpa only [Nat.zero_add] using readHttpPorts_numbered h.httpPorts
  proxies := by simpa only [Nat.zero_add] using readProxies_numbered h.proxies

theorem Loaded.folders {m : ConfigMap} {p : ServerParameters} (h : Loaded m p)
    (hlog : m.find (ascii "logFolder") = none) : Folders m p := by
  refine ⟨?_, ?_⟩
  · rw [h.rootFolder, hlog]
    unfold IsValue
    cases m.find (ascii "rootFolder") <;> rfl
  · rw [h.logFolder, hlog]
    rfl

/-- With a key `logFolder`, its value is the root folder and the log folder keeps its default. -/
theorem Loaded.folders_iff {m : ConfigMap} {p : ServerParameters} (h : Loaded m p) :
    Folders m p ↔ FolderKeys m := by
  constructor
  · rintro ⟨hroot, hlog⟩
    rw [h.rootFolder] at hroot
    rw [h.logFolder] at hlog
    cases hfind : m.find (ascii "logFolder") with
    | none => exact Or.inl hfind
    | some value =>
      rw [hfind] at hroot hlog
      obtain rfl : value = ascii "./log" := Option.some.inj hlog
      refine Or.inr ⟨hfind, ?_⟩
      cases hvalue : m.find (ascii "rootFolder") with
      | none =>
        rw [hvalue] at hroot
        exact hroot.symm
      | some value =>
        rw [hvalue] at hroot
        exact Option.some.inj hroot
  · rintro (hnone | ⟨hlog, hroot⟩)
    · exact h.folders hnone
    · refine ⟨?_, ?_⟩
      · rw [h.rootFolder, hlog]
        cases hvalue : m.find (ascii "rootFolder") with
        | none =>
          rw [hvalue] at hroot
          exact hroot.symm
        | some value =>
          rw [hvalue] at hroot
          exact congrArg some hroot
      · rw [h.logFolder, hlog]
        rfl

/-! ## The numbered lists without a limit -/

theorem valueAbove_not {m : ConfigMap} {key : Bytes} {bound x : Int}
    (h : valueAbove m key bound = some x) : ¬ NotAbove m key bound := by
  unfold valueAbove at h
  obtain ⟨hvalue, hlt⟩ := Option.filter_eq_some_iff.mp h
  rintro (hnone | ⟨value, x', hfind, hx', hle⟩)
  · rw [hnone] at hvalue
    cases hvalue
  · rw [hfind, Option.bind_some, hx'] at hvalue
    obtain rfl := Option.some.inj hvalue
    have hlt' : bound < x' := of_decide_eq_true hlt
    omega

theorem proxy_not {m : ConfigMap} {i : Nat} {x : ProxyParameters} (h : proxy m i = some x) :
    ¬ NotAbove m (proxyKey i ".port") 0 := by
  obtain ⟨port, hport, _⟩ := Option.bind_eq_some_iff.mp h
  exact valueAbove_not hport

/-- The limit makes no difference exactly when the list ends before it is reached. -/
theorem Numbered.unlimited_iff {α : Type} {item : Nat → Option α} {stops : Nat → Prop} {n : Nat}
    {l : List α} (h : Numbered item stops (some n) l)
    (hitem : ∀ i x, item i = some x → ¬ stops i) :
    Numbered item stops none l ↔ ∃ i ≤ n, stops i := by
  constructor
  · intro hnone
    rcases hnone.ends with hstops | hlimit
    · exact ⟨l.length, h.bounded n rfl, hstops⟩
    · cases hlimit
  · rintro ⟨i, hi, hstops⟩
    refine ⟨h.items, Or.inl ?_, fun _ hlimit => by cases hlimit⟩
    rcases h.ends with hends | hlimit
    · exact hends
    · -- A full list has an item for every smaller number.
      have hlength : l.length = n := Option.some.inj hlimit
      have hge : ¬ i < l.length := fun hlt =>
        hitem i _ (h.items i _ (List.getElem?_eq_getElem hlt)) hstops
      have heq : i = l.length := by omega
      rw [← heq]
      exact hstops

theorem Loaded.unlimited_iff {m : ConfigMap} {p : ServerParameters} (h : Loaded m p) :
    Settings none m p ↔ ListsEnd m := by
  have hl := h.settings
  have hports := hl.httpPorts.unlimited_iff (fun i x hx => valueAbove_not hx)
  have hproxies := hl.proxies.unlimited_iff (fun i x hx => proxy_not hx)
  constructor
  · intro hnone
    exact ⟨hports.mp hnone.httpPorts, hproxies.mp hnone.proxies⟩
  · intro hends
    exact ⟨hl.threadCount, hl.executorTimeoutMillis, hl.logFileSize, hl.logArchiveCount,
      hl.logLevel, hl.logType, hports.mpr hends.httpPorts, hproxies.mpr hends.proxies⟩

/-- The lists of a file end in front of the number 9, which no key of it contains. -/
theorem listsEnd_of_keyed {m : ConfigMap} (h : ConfigReader.Keyed m) : ListsEnd m := by
  have habsent : ∀ key : Bytes, (57 : UInt8) ∈ key → m.find key = none := by
    intro key hin
    by_contra hfind
    exact absurd (h key hfind 57 hin) (by decide)
  exact ⟨⟨9, by decide, Or.inl (habsent _ (by decide +kernel))⟩,
    ⟨9, by decide, Or.inl (habsent _ (by decide +kernel))⟩⟩

theorem listsEnd_of_file {file : Option Bytes} {result : Bool} {m : ConfigMap}
    (h : ConfigReader.configReadFile file ConfigMap.empty = some (result, m)) : ListsEnd m :=
  listsEnd_of_keyed (ConfigReader.configReadFile_keyed ConfigReader.keyed_empty h)

/-! ## No setting looks at the keys of another -/

theorem Setting.owns_stem {s : Setting} {key : Bytes} (h : s.Owns key) : s.stem <+: key := by
  cases s
  case httpPorts =>
    obtain ⟨n, rfl⟩ := h
    exact List.prefix_append _ _
  case proxies =>
    obtain ⟨n, field, _, rfl⟩ := h
    unfold proxyKey
    rw [List.append_assoc]
    exact List.prefix_append _ _
  all_goals
    obtain rfl : key = _ := h
    exact List.prefix_refl _

/-- The bytes of the stems. -/
def Setting.code : Setting → Bytes
  | .rootFolder => [114, 111, 111, 116, 70, 111, 108, 100, 101, 114]
  | .logFolder => [108, 111, 103, 70, 111, 108, 100, 101, 114]
  | .threadCount => [116, 104, 114, 101, 97, 100, 67, 111, 117, 110, 116]
  | .executorTimeoutMillis =>
    [101, 120, 101, 99, 117, 116, 111, 114, 84, 105, 109, 101, 111, 117, 116, 77, 105, 108, 108,
      105, 115]
  | .logFileSize => [108, 111, 103, 70, 105, 108, 101, 83, 105, 122, 101]
  | .logArchiveCount => [108, 111, 103, 65, 114, 99, 104, 105, 118, 101, 67, 111, 117, 110, 116]
  | .logLevel => [108, 111, 103, 76, 101, 118, 101, 108]
  | .logType => [108, 111, 103, 84, 121, 112, 101]
  | .httpPorts => [104, 116, 116, 112, 80, 111, 114, 116]
  | .proxies => [112, 114, 111, 120, 121]

theorem Setting.stem_code (s : Setting) : s.stem = s.code := by
  cases s <;> decide +kernel

theorem stems_apart {s s' : Setting} (h : s ≠ s') : ¬ s.stem <+: s'.stem := by
  rw [s.stem_code, s'.stem_code]
  cases s <;> cases s' <;> first | exact absurd rfl h | decide

/-- No key belongs to two settings. -/
theorem owns_apart {s s' : Setting} {key : Bytes} (h : s' ≠ s) (hs' : s'.Owns key) :
    ¬ s.Owns key := by
  intro hs
  rcases List.prefix_or_prefix_of_prefix (Setting.owns_stem hs') (Setting.owns_stem hs) with hp | hp
  · exact stems_apart h hp
  · exact stems_apart (Ne.symm h) hp

section
variable {m m' : ConfigMap} {s : Setting}

theorem getOptional_congr {α : Type} {convert : Bytes → Option α} {default x x' : α} {key : Bytes}
    (hsame : m.find key = m'.find key) (h : getOptional convert m key default = some x)
    (h' : getOptional convert m' key default = some x') : x = x' := by
  unfold getOptional at h h'
  rw [hsame] at h
  exact Option.some.inj (h.symm.trans h')

theorem readHttpPorts_congr (hsame : ∀ n, m.find (httpPortKey n) = m'.find (httpPortKey n))
    (rounds portNum : Nat) : readHttpPorts m rounds portNum = readHttpPorts m' rounds portNum := by
  induction rounds generalizing portNum with
  | zero => rfl
  | succ rounds ih =>
    unfold readHttpPorts getOptionalInt
    rw [hsame portNum, ih (portNum + 1)]

theorem readProxies_congr
    (hsame : ∀ n, ∀ field ∈ [".port", ".address", ".prefix", ".socket"],
      m.find (proxyKey n field) = m'.find (proxyKey n field))
    (rounds proxyNum : Nat) : readProxies m rounds proxyNum = readProxies m' rounds proxyNum := by
  have hproxy : ∀ n, readProxy m n = readProxy m' n := by
    intro n
    funext port
    unfold readProxy getOptional
    rw [hsame n ".address" (by simp), hsame n ".prefix" (by simp), hsame n ".socket" (by simp)]
  induction rounds generalizing proxyNum with
  | zero => rfl
  | succ rounds ih =>
    unfold readProxies getOptionalInt
    rw [hsame proxyNum ".port" (by simp), hproxy, ih (proxyNum + 1)]

/-- Two maps that differ in the keys of one setting, and a setting that is not that one; the key
`logFolder` is left out for `rootFolder`. -/
theorem Loaded.same {p p' : ServerParameters} (h : Loaded m p) (h' : Loaded m' p')
    (hdiffer : DifferOnly s m m') {s' : Setting} (hne : s' ≠ s)
    (hroot : s = .logFolder → s' ≠ .rootFolder) : s'.Same p p' := by
  have hkey : ∀ key, s'.Owns key → m.find key = m'.find key :=
    fun key howns => hdiffer key (owns_apart hne howns)
  cases s'
  case rootFolder =>
    have hlog : m.find (ascii "logFolder") = m'.find (ascii "logFolder") := by
      refine hdiffer _ (fun howns => ?_)
      have hs : s = .logFolder := by
        by_contra hs
        exact owns_apart (Ne.symm hs) (show Setting.Owns .logFolder _ from rfl) howns
      exact hroot hs rfl
    show p.rootFolder = p'.rootFolder
    rw [h.rootFolder, h'.rootFolder, hlog, hkey (ascii "rootFolder") rfl]
  case logFolder => exact h.logFolder.trans h'.logFolder.symm
  case threadCount => exact getOptional_congr (hkey _ rfl) h.threadCount h'.threadCount
  case executorTimeoutMillis =>
    exact getOptional_congr (hkey _ rfl) h.executorTimeoutMillis h'.executorTimeoutMillis
  case logFileSize => exact getOptional_congr (hkey _ rfl) h.logFileSize h'.logFileSize
  case logArchiveCount =>
    exact getOptional_congr (hkey _ rfl) h.logArchiveCount h'.logArchiveCount
  case logLevel => exact getOptional_congr (hkey _ rfl) h.logLevel h'.logLevel
  case logType => exact getOptional_congr (hkey _ rfl) h.logType h'.logType
  case httpPorts =>
    have hread := readHttpPorts_congr (fun n => hkey (httpPortKey n) ⟨n, rfl⟩) 100 0
    rw [h.httpPorts, h'.httpPorts] at hread
    exact Option.some.inj hread
  case proxies =>
    have hread := readProxies_congr
      (fun n field hf => hkey (proxyKey n field) ⟨n, field, hf, rfl⟩) 100 0
    rw [h.proxies, h'.proxies] at hread
    exact Option.some.inj hread

end

/-- What the key `logFolder` does to the root folder. -/
theorem Loaded.rootFolder_iff {m m' : ConfigMap} {p p' : ServerParameters} (h : Loaded m p)
    (h' : Loaded m' p') (hdiffer : DifferOnly .logFolder m m') :
    p.rootFolder = p'.rootFolder ↔
      (m.find (ascii "logFolder")).getD ((m.find (ascii "rootFolder")).getD (ascii "./data")) =
        (m'.find (ascii "logFolder")).getD
          ((m.find (ascii "rootFolder")).getD (ascii "./data")) := by
  have hother : Setting.rootFolder ≠ .logFolder := by decide
  have hroot : m.find (ascii "rootFolder") = m'.find (ascii "rootFolder") :=
    hdiffer _ (owns_apart hother rfl)
  rw [h.rootFolder, h'.rootFolder, hroot]

/-- The result is the field-wise reference exactly when no key `logFolder` comes between and the
lists end in time; and the keys of one setting leave the others alone, unless that setting is the
log folder and its key changes the root folder. -/
theorem load_reference_iff {m : ConfigMap} {p : ServerParameters} (h : load m = some p) :
    (Reference m p ↔ FolderKeys m ∧ ListsEnd m) ∧
      ∀ s m' p', load m' = some p' → DifferOnly s m m' →
        ((∀ s', s' ≠ s → s'.Same p p') ↔ (s = .logFolder →
          (m.find (ascii "logFolder")).getD ((m.find (ascii "rootFolder")).getD (ascii "./data")) =
            (m'.find (ascii "logFolder")).getD
              ((m.find (ascii "rootFolder")).getD (ascii "./data")))) := by
  have hl := load_some h
  refine ⟨⟨fun hr => ⟨hl.folders_iff.mp hr.folders, hl.unlimited_iff.mp hr.settings⟩,
    fun hkeys => ⟨hl.unlimited_iff.mpr hkeys.2, hl.folders_iff.mpr hkeys.1⟩⟩, ?_⟩
  intro s m' p' h' hdiffer
  have hl' := load_some h'
  constructor
  · rintro hsame rfl
    exact (hl.rootFolder_iff hl' hdiffer).mp (hsame .rootFolder (by decide))
  · intro hroot s' hne
    by_cases hcase : s = .logFolder ∧ s' = .rootFolder
    · obtain ⟨rfl, rfl⟩ := hcase
      exact (hl.rootFolder_iff hl' hdiffer).mpr (hroot rfl)
    · exact hl.same hl' hdiffer hne (fun hs hs' => hcase ⟨hs, hs'⟩)

/-- A port and a root folder. -/
def ownFolder : Bytes := ascii "httpPort0=80\nrootFolder=/www\n"

theorem load_reference_iff_ownFolder : ∃ m p,
    ConfigReader.configReadFile (some ownFolder) ConfigMap.empty = some (true, m) ∧
      load m = some p ∧ (Reference m p ↔ FolderKeys m ∧ ListsEnd m) ∧
      ∀ s m' p', load m' = some p' → DifferOnly s m m' →
        ((∀ s', s' ≠ s → s'.Same p p') ↔ (s = .logFolder →
          (m.find (ascii "logFolder")).getD ((m.find (ascii "rootFolder")).getD (ascii "./data")) =
            (m'.find (ascii "logFolder")).getD
              ((m.find (ascii "rootFolder")).getD (ascii "./data")))) := by
  have hload : (ConfigReader.configReadFile (some ownFolder) ConfigMap.empty).any
      (fun read => read.1 && (load read.2).isSome) = true := by decide +kernel
  obtain ⟨⟨result, m⟩, hread, hboth⟩ := (Option.any_eq_true _ _).mp hload
  obtain ⟨hresult, hsome⟩ := Bool.and_eq_true_iff.mp hboth
  obtain rfl : result = true := hresult
  obtain ⟨p, hp⟩ := Option.isSome_iff_exists.mp hsome
  exact ⟨m, p, hread, hp, load_reference_iff hp⟩

/-- A folder for the log and none for the files. -/
def strayFolder : Bytes := ascii "httpPort0=80\nlogFolder=/var/log\n"

/-- The log folder becomes the root folder. -/
theorem strayFolder_misplaced : ∃ m p,
    ConfigReader.configReadFile (some strayFolder) ConfigMap.empty = some (true, m) ∧
      load m = some p ∧ p.rootFolder = ascii "/var/log" ∧ p.logFolder = ascii "./log" ∧
      ¬ Reference m p := by
  have hload : (ConfigReader.configReadFile (some strayFolder) ConfigMap.empty).any
      (fun read => read.1 && decide (read.2.find (ascii "logFolder") = some (ascii "/var/log")) &&
        (load read.2).any (fun p =>
          decide (p.rootFolder = ascii "/var/log" ∧ p.logFolder = ascii "./log"))) = true := by
    decide +kernel
  obtain ⟨⟨result, m⟩, hread, hall⟩ := (Option.any_eq_true _ _).mp hload
  obtain ⟨hboth, hany⟩ := Bool.and_eq_true_iff.mp hall
  obtain ⟨hresult, hfind⟩ := Bool.and_eq_true_iff.mp hboth
  obtain rfl : result = true := hresult
  obtain ⟨p, hp, hfolders⟩ := (Option.any_eq_true _ _).mp hany
  obtain ⟨hroot, hlog⟩ := of_decide_eq_true hfolders
  refine ⟨m, p, hread, hp, hroot, hlog, fun hr => ?_⟩
  have hvalue := hr.folders.logFolder
  rw [of_decide_eq_true hfind, hlog] at hvalue
  exact absurd (Option.some.inj hvalue) (by decide +kernel)

end Config
end EpollHttp
