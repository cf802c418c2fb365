import EpollHttp.Lib.Paths
import EpollHttp.PollLoop.FileName

/-
The file that a request names lies in the root folder.

The name is the root folder, a slash and the URL behind the decoder, which `checkUrl` has looked
at byte by byte; the buffer of the loop keeps the root folder from one request to the next.
-/

namespace EpollHttp
namespace Containment

open Program CString HttpRequest RequestExecutor

/-! ## The URL -/

/-- A letter, a digit, or one of `/`, `.`, `_`, `-` and the space. -/
def NameSymbol (c : UInt8) : Prop :=
  (97 ≤ c ∧ c ≤ 122) ∨ (65 ≤ c ∧ c ≤ 90) ∨ (48 ≤ c ∧ c ≤ 57) ∨ c ∈ [47, 46, 95, 45, 32]

instance (c : UInt8) : Decidable (NameSymbol c) := inferInstanceAs (Decidable (_ ∨ _))

/-- The table of `checkUrl` has no other symbols. -/
theorem checkUrlSymbols_iff {c : UInt8} : checkUrlSymbols c = true ↔ NameSymbol c := by
  unfold checkUrlSymbols isLower isUpper isDigit NameSymbol
  simp only [Bool.or_eq_true, Bool.and_eq_true, decide_eq_true_eq, beq_iff_eq, List.mem_cons,
    List.not_mem_nil, or_false, or_assoc]
  rfl

/-- The string is made of the bytes of a URL, and no two dots stand next to each other. -/
structure Checked (url : Bytes) : Prop where
  symbols : ∀ c ∈ url, NameSymbol c
  dots : ¬ [dot, dot] <:+: url

theorem checked_of_buffer {urlBuffer : Bytes} (h : checkUrlBuffer urlBuffer = true) :
    Checked (cString urlBuffer) := by
  obtain ⟨hsymbols, hdots⟩ := checkUrlFrom_iff.mp h
  exact ⟨fun c hc => checkUrlSymbols_iff.mp (hsymbols c hc),
    fun hin => hdots (hin.trans (List.suffix_cons _ _).isInfix)⟩

theorem postParse_checked {r r' : HttpRequest} (h : r.postParse = (.finishOk, r')) :
    checkUrlBuffer r'.urlBuffer = true := by
  unfold postParse at h
  split at h
  · cases h
  · split at h
    · rename_i hcheck
      rw [← (Prod.mk.inj h).2]
      exact hcheck
    · cases h

/-- The parser finishes with a URL that was checked. -/
theorem parse_checked {r r' : HttpRequest} {data : Bytes}
    (h : r.parse data = some (.finishOk, r')) : checkUrlBuffer r'.urlBuffer = true := by
  unfold parse parseFuel at h
  split at h
  · cases h
  · exact postParse_checked (Option.some.inj h)
  · rename_i result r'' hne hinternal
    obtain ⟨rfl, rfl⟩ := Prod.mk.inj (Option.some.inj h)
    exact absurd rfl hne

theorem getUrl_checked {r : HttpRequest} {url : Bytes} (h : checkUrlBuffer r.urlBuffer = true)
    (hurl : r.getUrl = some url) : Checked url ∧ 0 ∉ url := by
  unfold getUrl at hurl
  split at hurl
  · cases hurl
  · rw [← Option.some.inj hurl]
    exact ⟨checked_of_buffer h, no_nul_cString _⟩

/-! ## The name -/

/-- The root folder, a slash and `index.html` fit into `fileNameBuffer`. -/
def Fits (root : Bytes) : Prop := root.length + 1 + indexHtml.length ≤ MAX_FILE_NAME

instance (root : Bytes) : Decidable (Fits root) := inferInstanceAs (Decidable (_ ≤ _))

/-- The name leads into the root folder and does not leave it. -/
structure Contained (root name : Bytes) : Prop where
  inside : ∃ suffix, name = root ++ slash :: suffix ∧ Checked suffix ∧
    [dot, dot] ∉ suffix.splitOn slash ∧
    ∀ n, Paths.resolve dot [] (root.splitOn slash) <+:
      Paths.resolve dot [] ((name.splitOn slash).take ((root.splitOn slash).length + n))

theorem contained_of_checked {root suffix : Bytes} (h : Checked suffix) :
    Contained root (root ++ slash :: suffix) := by
  have hdots : [dot, dot] ∉ suffix.splitOn slash :=
    fun hin => h.dots (Paths.infix_of_mem_splitOn hin)
  refine ⟨suffix, rfl, h, hdots, fun n => ?_⟩
  have hnot : [dot, dot] ∉ (suffix.splitOn slash).take n :=
    fun hin => hdots (List.mem_of_mem_take hin)
  have hinside := Paths.resolve_inside hnot (Paths.resolve dot [] (root.splitOn slash))
  rw [List.splitOn_append_cons_self, List.take_length_add_append]
  unfold Paths.resolve at hinside ⊢
  rw [List.foldl_append]
  exact hinside

/-- The buffer of the loop starts with the root folder and a slash. -/
structure Rooted (root : Bytes) (loop : PollLoop) : Prop where
  size : loop.fileNameBuffer.length = MAX_FILE_NAME + 1
  folder : loop.fileNameBuffer.take (root.length + 1) = root ++ [slash]
  length : loop.rootFolderLength = root.length + 1

section
variable {root name : Bytes} {loop : PollLoop}

theorem strcat_terminated {front rest : Bytes} (hfront : 0 ∉ front) (name : Bytes) :
    strcat (front ++ 0 :: rest) name =
      front ++ (name ++ 0 :: (0 :: rest).drop (name.length + 1)) := by
  unfold strcat
  rw [cString_terminated, cString_of_no_nul hfront, List.take_left, List.drop_left]
  unfold overwrite
  simp

theorem Rooted.cut (h : Rooted root loop) (hfits : Fits root) : ∃ rest,
    cutFileName loop = (root ++ [slash]) ++ 0 :: rest ∧
      rest.length + (root.length + 2) = MAX_FILE_NAME + 1 := by
  have hlt : root.length + 1 < loop.fileNameBuffer.length := by
    rw [h.size]
    unfold Fits at hfits
    omega
  refine ⟨loop.fileNameBuffer.drop (root.length + 2), ?_, ?_⟩
  · unfold cutFileName
    rw [h.length, List.set_eq_take_append_cons_drop, if_pos hlt, h.folder]
  · rw [List.length_drop, h.size]
    rw [h.size] at hlt
    omega

theorem noNul_folder (hroot : 0 ∉ root) : 0 ∉ root ++ [slash] := by
  simp only [List.mem_append, List.mem_singleton, not_or]
  exact ⟨hroot, by decide⟩

/-- The file is named behind the root folder. -/
theorem Rooted.named (h : Rooted root loop) (hfits : Fits root) (hroot : 0 ∉ root)
    (hlength : root.length + 1 + name.length ≤ MAX_FILE_NAME) :
    Rooted root { loop with fileNameBuffer := strcat (cutFileName loop) name } := by
  obtain ⟨rest, hcut, hrest⟩ := h.cut hfits
  rw [hcut, strcat_terminated (noNul_folder hroot)]
  refine ⟨?_, ?_, h.length⟩
  · simp only [List.length_append, List.length_cons, List.length_nil, List.length_drop]
    omega
  · rw [List.take_append_of_le_length (by simp), List.take_of_length_le (by simp)]

theorem Rooted.cString_named (h : Rooted root loop) (hfits : Fits root) (hroot : 0 ∉ root)
    (hname : 0 ∉ name) : cString (strcat (cutFileName loop) name) = root ++ slash :: name := by
  obtain ⟨rest, hcut, _⟩ := h.cut hfits
  rw [hcut, strcat_terminated (noNul_folder hroot), ← List.append_assoc, cString_terminated,
    cString_of_no_nul]
  · simp
  · simp only [List.mem_append, not_or]
    exact ⟨⟨hroot, by decide⟩, hname⟩

theorem Rooted.cutOff (h : Rooted root loop) (hfits : Fits root) :
    Rooted root { loop with fileNameBuffer := cutFileName loop } := by
  obtain ⟨rest, hcut, hrest⟩ := h.cut hfits
  refine ⟨?_, ?_, h.length⟩
  · rw [hcut]
    simp only [List.length_append, List.length_cons, List.length_nil]
    omega
  · rw [hcut, List.take_append_of_le_length (by simp), List.take_of_length_le (by simp)]

/-- What `init` leaves in the buffer. -/
theorem rooted_init {parameters : ServerParameters} {loop : PollLoop}
    (hfits : Fits (cString parameters.rootFolder))
    (hbuffer : loop.fileNameBuffer = printRootFolder parameters.rootFolder)
    (hlength : loop.rootFolderLength =
      (cString (printRootFolder parameters.rootFolder)).length) :
    Rooted (cString parameters.rootFolder) loop := by
  have hroot := no_nul_cString parameters.rootFolder
  generalize hdef : cString parameters.rootFolder = root at *
  have hwhole : (root ++ [slash]).take (MAX_FILE_NAME - 1) = root ++ [slash] := by
    refine List.take_of_length_le ?_
    have hlt : root.length + 1 + 10 ≤ 300 := hfits
    rw [List.length_append]
    show root.length + 1 ≤ 299
    omega
  have hprint : printRootFolder parameters.rootFolder =
      overwrite (List.replicate (MAX_FILE_NAME + 1) 0) ((root ++ [slash]) ++ [0]) := by
    unfold printRootFolder
    rw [hdef, hwhole]
  refine ⟨?_, ?_, ?_⟩
  · rw [hbuffer, hprint]
    unfold overwrite
    rw [List.length_append, List.length_drop, List.length_replicate]
    have hlt : root.length + 1 + 10 ≤ 300 := hfits
    simp only [List.length_append, List.length_singleton]
    show root.length + 1 + 1 + (301 - (root.length + 1 + 1)) = 301
    omega
  · rw [hbuffer, hprint]
    unfold overwrite
    rw [List.append_assoc, List.take_append_of_le_length (by simp),
      List.take_of_length_le (by simp)]
  · rw [hlength, hprint, cString_overwrite, cString_of_no_nul (noNul_folder hroot)]
    simp

end

/-! ## A request -/

section
variable {root : Bytes} {w : World} {l r : Nat}

/-- The file that is named lies in the root folder. -/
theorem nameFile_contained {url : Bytes} (h : Rooted root (w.loops l)) (hfits : Fits root)
    (hroot : 0 ∉ root) (hurl : Checked url) (hnul : 0 ∉ url) :
    Ensures (nameFile l url) w (fun result w' => result = .file →
      Contained root (cString (w'.loops l).fileNameBuffer)) := by
  simp only [nameFile, appendFileName, ensures_bind, ensures_modifyLoop, ensures_ite, ensures_pure,
    ensures_getLoop, World.setLoop_self]
  have hnamed : ∀ name, 0 ∉ name → Checked name →
      Contained root (cString (strcat (cutFileName (w.loops l)) name)) := by
    intro name hname hchecked
    rw [h.cString_named hfits hroot hname]
    exact contained_of_checked hchecked
  refine ⟨fun _ _ => ?_, fun _ => ⟨fun hlength _ => ?_, fun _ hresult => by cases hresult⟩⟩
  · exact hnamed indexHtml (by decide) ⟨by decide +kernel, by decide⟩
  · exact hnamed url hnul hurl

theorem dispatchRequest_contained {request : HttpRequest} (h : Rooted root (w.loops l))
    (hfits : Fits root) (hroot : 0 ∉ root) (hchecked : checkUrlBuffer request.urlBuffer = true) :
    Ensures (dispatchRequest l r request) w (fun result w' => result = .file →
      Contained root (cString (w'.loops l).fileNameBuffer)) := by
  simp only [dispatchRequest, ensures_bind, ensures_getData, ensures_get]
  cases findProxy w.parameters.proxies request with
  | some proxy =>
    simp only [ensures_ite, ensures_pure, ensures_bind, ensures_modifyData]
    exact ⟨fun _ hresult => (by cases hresult), fun _ hresult => (by cases hresult)⟩
  | none =>
    cases hurl : request.getUrl with
    | none => exact ensures_pure.mpr (fun hresult => by cases hresult)
    | some url =>
      obtain ⟨hurl, hnul⟩ := getUrl_checked hchecked hurl
      exact nameFile_contained h hfits hroot hurl hnul

/-- Whenever `parseRequest` returns `file`, the file lies in the root folder. -/
theorem parseRequest_contained (h : Rooted root (w.loops l)) (hfits : Fits root)
    (hroot : 0 ∉ root) :
    Ensures (parseRequest l r) w (fun result w' => result = .file →
      Contained root (cString (w'.loops l).fileNameBuffer)) := by
  have hkept : ∀ d, Rooted root ((w.setData l r d).loops l) := by
    intro d
    rw [World.setData_loops]
    exact ⟨h.size, h.folder, h.length⟩
  simp only [parseRequest, ensures_bind, ensures_getData]
  cases (w.data l r).buffer.startRead with
  | none => exact ensures_pure.mpr (fun hresult => by cases hresult)
  | some window =>
    dsimp only
    cases hparse : (w.data l r).request.parse
      ((w.data l r).buffer.slice window.start (window.start + window.size)) with
    | none => exact ensures_fail.mpr trivial
    | some parsed =>
      obtain ⟨result, request⟩ := parsed
      simp only [ensures_bind, ensures_modifyData]
      cases result with
      | needMoreData => exact ensures_pure.mpr (fun hresult => by cases hresult)
      | finishInvalid => exact ensures_pure.mpr (fun hresult => by cases hresult)
      | finishOk =>
        exact dispatchRequest_contained (hkept _) hfits hroot (parse_checked hparse)

end

/-! ## The folder from one request to the next -/

section
variable {parameters : ServerParameters} {w w' : World} {l r : Nat}
variable {loop loop' : PollLoop} {root : Bytes} {op : Operation}

theorem Rooted.congr (h : Rooted root loop) (hname : loop'.fileNameBuffer = loop.fileNameBuffer)
    (hlength : loop'.rootFolderLength = loop.rootFolderLength) : Rooted root loop' :=
  ⟨by rw [hname]; exact h.size, by rw [hname]; exact h.folder, hlength.trans h.length⟩

/-- The buffer is written behind the root folder only. -/
theorem rooted_kept (hfits : Fits (cString parameters.rootFolder)) :
    NameKept parameters.rootFolder (Rooted (cString parameters.rootFolder)) := by
  refine ⟨Rooted.congr, fun _ h => h.cutOff hfits, fun loop name hname h => ?_,
    fun _ => rooted_init hfits⟩
  refine h.named hfits (no_nul_cString _) ?_
  rcases hname with rfl | hlength
  · exact hfits
  · rw [← h.length]
    exact hlength

/-- The loops that were initialised have the root folder in their buffers. -/
structure Housed (w : World) : Prop where
  steady : Steady w
  rooted : ∀ l, (w.loops l).phase.Started →
    Rooted (cString w.parameters.rootFolder) (w.loops l)

theorem step_housed (hfits : Fits (cString w.parameters.rootFolder)) (h : Housed w)
    (hstep : op.step w = some w') : Housed w' ∧ w'.parameters = w.parameters := by
  obtain ⟨⟨hsteady, hrooted⟩, hkept⟩ := (rooted_kept hfits).step h.steady h.rooted hstep
  refine ⟨⟨hsteady, ?_⟩, hkept⟩
  rw [hkept]
  exact hrooted

theorem run_housed (hfits : Fits (cString parameters.rootFolder)) {ops : List Operation}
    (hrun : Run.run Operation.step { parameters := parameters } ops = some w) :
    Housed w ∧ w.parameters = parameters := by
  refine Run.run_invariant (P := fun w => Housed w ∧ w.parameters = parameters)
    (fun w op w' h hstep => ?_)
    ⟨⟨steady_start parameters, fun _ hstarted => False.elim hstarted⟩, rfl⟩ hrun
  obtain ⟨hhoused, hkept⟩ := step_housed (by rw [h.2]; exact hfits) h.1 hstep
  exact ⟨hhoused, hkept.trans h.2⟩

/-- Whatever a client sends and whatever was served before, a file that `parseRequest` names lies
in the root folder. -/
theorem run_contained (hfits : Fits (cString parameters.rootFolder)) {ops : List Operation}
    (hrun : Run.run Operation.step { parameters := parameters } ops = some w)
    (hphase : (w.loops l).phase = .waiting) (k : Kernel) (d : ExecutorData) :
    Ensures (parseRequest l r) ((w.setKernel k).setData l r d) (fun result w' =>
      result = .file →
        Contained (cString parameters.rootFolder) (cString (w'.loops l).fileNameBuffer)) := by
  obtain ⟨hhoused, hkept⟩ := run_housed hfits hrun
  have hrooted := hhoused.rooted l (by rw [hphase]; trivial)
  rw [hkept] at hrooted
  refine parseRequest_contained ?_ hfits (no_nul_cString _)
  rw [World.setData_loops]
  exact hrooted.congr rfl rfl

/-- A client is served a file of three bytes, and another one connects. -/
def servedClient : List Operation :=
  [.init 0 { epollCreate := 3, eventfd := 4 },
    .listenPort 0 .server { socket := 5 },
    .process 0 1 5 EPOLLIN { accept4 := 6 },
    .process 0 2 6 EPOLLIN
      { read := { bytes := some (HttpResponse.ascii "GET /a%20b HTTP/1.1\r\nHost: a\r\n\r\n") }
        openFile := 7, fstat := some (3, 1) },
    .process 0 2 6 EPOLLOUT { write := { count := 1000 } },
    .process 0 2 6 EPOLLOUT { sendfile := { bytes := some [1, 2, 3] } },
    .removeExecutorData 0 2,
    .process 0 1 5 EPOLLIN { accept4 := 8 }]

/-- The data of an executor that has received the bytes. -/
def received (bytes : Bytes) : ExecutorData :=
  { buffer :=
      { buf := bytes ++ List.replicate (ExecutorData.REQUEST_BUFFER_SIZE - bytes.length) 0
        writeHead := bytes.length } }

/-- A dot and a name are asked for by their codes. -/
theorem run_contained_servedClient : ∃ w w',
    Run.run Operation.step { parameters := { rootFolder := [47, 119, 119, 119] } } servedClient =
      some w ∧
    parseRequest 0 2 ((w.setKernel w.kernel).setData 0 2
        (received (HttpResponse.ascii "GET /%2e/b%2Fc HTTP/1.1\r\nHost: a\r\n\r\n"))) =
      some (.file, w') ∧
    Contained (cString [47, 119, 119, 119]) (cString (w'.loops 0).fileNameBuffer) := by
  have hrun : (Run.run Operation.step { parameters := { rootFolder := [47, 119, 119, 119] } }
      servedClient).any (fun w => (w.loops 0).phase.waits && (parseRequest 0 2
        ((w.setKernel w.kernel).setData 0 2 (received
          (HttpResponse.ascii "GET /%2e/b%2Fc HTTP/1.1\r\nHost: a\r\n\r\n")))).any
            (fun parsed => decide (parsed.1 = .file))) = true := by decide +kernel
  obtain ⟨w, hw, hboth⟩ := (Option.any_eq_true _ _).mp hrun
  obtain ⟨hwaiting, hany⟩ := Bool.and_eq_true_iff.mp hboth
  obtain ⟨⟨result, w'⟩, hparse, hresult⟩ := (Option.any_eq_true _ _).mp hany
  obtain rfl : result = .file := of_decide_eq_true hresult
  exact ⟨w, w', hw, hparse,
    run_contained (by decide) hw (Phase.waits_iff.mp hwaiting) w.kernel _ _ _ hparse rfl⟩

end

end Containment
end EpollHttp
