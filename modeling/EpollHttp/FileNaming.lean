import EpollHttp.Containment
import EpollHttp.PollLoop.Onward

/-
The file name is composed in the 301 bytes of `fileNameBuffer`.

`init` prints the root folder and cuts it off behind 299 bytes; a request appends the URL, whose
length is checked, or `index.html`, for which no branch checks whether it fits.  Here every byte is
stored at its index.  A byte behind the buffer makes it longer; a loop that has one is not looked at
any further.
-/

namespace EpollHttp
namespace FileNaming

open Program CString HttpRequest RequestExecutor
open Containment (received)

/-! ## Byte by byte -/

/-- The bytes are stored one after the other; one that would come to lie behind the buffer ends
it. -/
def storeFrom : Bytes → Nat → Bytes → Option Bytes
  | buffer, _, [] => some buffer
  | buffer, i, c :: rest =>
    if i ≤ MAX_FILE_NAME then storeFrom (buffer.set i c) (i + 1) rest else none

/-- `snprintf(fileNameBuffer, MAX_FILE_NAME, "%s/", rootFolder)` -/
def printAt (rootFolder : Bytes) : Option Bytes :=
  storeFrom (List.replicate (MAX_FILE_NAME + 1) 0) 0
    ((cString rootFolder ++ [slash]).take (MAX_FILE_NAME - 1) ++ [0])

/-- `strcat(fileNameBuffer, name)` -/
def strcatAt (buffer name : Bytes) : Option Bytes :=
  storeFrom buffer (cString buffer).length (name ++ [0])

/-- `parseRequest` from `fileNameBuffer[rootFolderLength] = 0` on. -/
def nameFileAt (buffer : Bytes) (rootFolderLength : Nat) (url : Bytes) :
    Option (ParseRequestResult × Bytes) :=
  match storeFrom buffer rootFolderLength [0] with
  | none => none
  | some cut =>
    if url = [slash] then (strcatAt cut indexHtml).map (.file, ·)
    else if rootFolderLength + url.length ≤ MAX_FILE_NAME then
      (strcatAt cut url).map (.file, ·)
    else some (.invalid, cut)

theorem storeFrom_fits {front rest bytes : Bytes}
    (hbuffer : front.length + bytes.length ≤ MAX_FILE_NAME + 1)
    (hrest : bytes.length ≤ rest.length) :
    storeFrom (front ++ rest) front.length bytes = some (front ++ overwrite rest bytes) := by
  induction bytes generalizing front rest with
  | nil => rfl
  | cons c bytes ih =>
    rw [List.length_cons] at hbuffer hrest
    obtain ⟨c', rest, rfl⟩ : ∃ c' rest', rest = c' :: rest' := by
      cases rest with
      | nil => exact absurd hrest (by simp)
      | cons c' rest' => exact ⟨c', rest', rfl⟩
    have hset : (front ++ c' :: rest).set front.length c = (front ++ [c]) ++ rest := by
      rw [List.set_append_right _ _ (Nat.le_refl _), Nat.sub_self, List.set_cons_zero]
      simp
    have hlength : front.length + 1 = (front ++ [c]).length := by simp
    rw [storeFrom, if_pos (by omega), hset, hlength, ih]
    · unfold overwrite
      simp
    · rw [← hlength]
      omega
    · rw [List.length_cons] at hrest
      omega

theorem storeFrom_over {bytes : Bytes} (buffer : Bytes) {i : Nat} (hne : bytes ≠ [])
    (h : MAX_FILE_NAME + 1 < i + bytes.length) : storeFrom buffer i bytes = none := by
  induction bytes generalizing buffer i with
  | nil => exact absurd rfl hne
  | cons c bytes ih =>
    rw [List.length_cons] at h
    unfold storeFrom
    split
    · refine ih _ ?_ (by omega)
      rintro rfl
      simp only [List.length_nil] at h
      omega
    · rfl

theorem storeFrom_length {buffer buffer' bytes : Bytes} {i : Nat}
    (h : storeFrom buffer i bytes = some buffer') : buffer'.length = buffer.length := by
  induction bytes generalizing buffer i with
  | nil => rw [← Option.some.inj h]
  | cons c bytes ih =>
    unfold storeFrom at h
    split at h
    · rw [ih h, List.length_set]
    · cases h

section
variable {front rest name : Bytes}

theorem strcatAt_fits (hfront : 0 ∉ front) (hbuffer : front.length + name.length ≤ MAX_FILE_NAME)
    (hrest : MAX_FILE_NAME + 1 ≤ (front ++ 0 :: rest).length) :
    strcatAt (front ++ 0 :: rest) name = some (strcat (front ++ 0 :: rest) name) := by
  rw [List.length_append] at hrest
  unfold strcatAt strcat
  rw [cString_terminated, cString_of_no_nul hfront, List.take_left, List.drop_left]
  refine storeFrom_fits ?_ ?_
  · rw [List.length_append, List.length_singleton]
    omega
  · rw [List.length_append, List.length_singleton]
    omega

theorem strcatAt_over (hfront : 0 ∉ front)
    (hbuffer : MAX_FILE_NAME < front.length + name.length) :
    strcatAt (front ++ 0 :: rest) name = none := by
  unfold strcatAt
  rw [cString_terminated, cString_of_no_nul hfront]
  refine storeFrom_over _ (by simp) ?_
  rw [List.length_append, List.length_singleton]
  omega

end

/-- `init` stays inside the buffer. -/
theorem printAt_eq (rootFolder : Bytes) :
    printAt rootFolder = some (printRootFolder rootFolder) := by
  have hlength : ((cString rootFolder ++ [slash]).take (MAX_FILE_NAME - 1) ++ [0]).length ≤
      MAX_FILE_NAME + 1 := by
    rw [List.length_append, List.length_singleton, List.length_take]
    unfold MAX_FILE_NAME
    omega
  unfold printAt printRootFolder
  rw [← List.nil_append (List.replicate (MAX_FILE_NAME + 1) (0 : UInt8))]
  refine (storeFrom_fits (Nat.zero_add _ ▸ hlength) ?_).trans rfl
  rw [List.length_replicate]
  exact hlength

theorem printRootFolder_length (rootFolder : Bytes) :
    (printRootFolder rootFolder).length = MAX_FILE_NAME + 1 := by
  unfold printRootFolder overwrite
  rw [List.length_append, List.length_drop, List.length_replicate, List.length_append,
    List.length_take, List.length_singleton]
  unfold MAX_FILE_NAME
  omega

/-! ## The buffer of a loop -/

/-- No byte was stored behind `fileNameBuffer`. -/
def Whole (loop : PollLoop) : Prop := loop.fileNameBuffer.length ≤ MAX_FILE_NAME + 1

instance (loop : PollLoop) : Decidable (Whole loop) := inferInstanceAs (Decidable (_ ≤ _))

/-- The root folder and a slash, as far as `init` prints them. -/
def printed (root : Bytes) : Bytes := (root ++ [slash]).take (MAX_FILE_NAME - 1)

/-- The buffer starts with what `init` has printed. -/
structure Printed (root : Bytes) (loop : PollLoop) : Prop where
  size : MAX_FILE_NAME + 1 ≤ loop.fileNameBuffer.length
  folder : loop.fileNameBuffer.take (printed root).length = printed root
  length : loop.rootFolderLength = (printed root).length

section
variable {root name url : Bytes} {loop : PollLoop}

theorem printed_length (root : Bytes) :
    (printed root).length = min (MAX_FILE_NAME - 1) (root.length + 1) := by
  unfold printed
  rw [List.length_take, List.length_append, List.length_singleton]

theorem printed_lt (root : Bytes) : (printed root).length < MAX_FILE_NAME := by
  rw [printed_length]
  unfold MAX_FILE_NAME
  omega

theorem noNul_printed (hroot : 0 ∉ root) : 0 ∉ printed root :=
  fun h => Containment.noNul_folder hroot (List.mem_of_mem_take h)

theorem Printed.cut (h : Printed root loop) : ∃ rest, cutFileName loop = printed root ++ 0 :: rest ∧
    MAX_FILE_NAME + 1 ≤ (printed root ++ 0 :: rest).length := by
  have hlt := printed_lt root
  have hsize := h.size
  have hcut : cutFileName loop =
      printed root ++ 0 :: loop.fileNameBuffer.drop ((printed root).length + 1) := by
    unfold cutFileName
    rw [h.length, List.set_eq_take_append_cons_drop, if_pos (by omega), h.folder]
  refine ⟨_, hcut, ?_⟩
  rw [← hcut]
  unfold cutFileName
  rw [List.length_set]
  exact hsize

theorem printed_kept {rootFolder : Bytes} :
    NameKept rootFolder (Printed (cString rootFolder)) := by
  have hnul : 0 ∉ printed (cString rootFolder) := noNul_printed (no_nul_cString _)
  have hlt := printed_lt (cString rootFolder)
  refine ⟨fun h hname hlength => ⟨by rw [hname]; exact h.size, by rw [hname]; exact h.folder,
    hlength.trans h.length⟩, fun loop h => ?_, fun loop name _ h => ?_,
    fun loop hname hlength => ?_⟩
  · obtain ⟨rest, hcut, hrest⟩ := h.cut
    refine ⟨?_, ?_, h.length⟩
    · rw [hcut]
      exact hrest
    · rw [hcut, List.take_left]
  · obtain ⟨rest, hcut, hrest⟩ := h.cut
    rw [List.length_append, List.length_cons] at hrest
    rw [hcut, Containment.strcat_terminated hnul]
    refine ⟨?_, List.take_left, h.length⟩
    simp only [List.length_append, List.length_cons, List.length_drop]
    omega
  · have hprint : loop.fileNameBuffer = printed (cString rootFolder) ++
        0 :: (List.replicate (MAX_FILE_NAME + 1) 0).drop
          ((printed (cString rootFolder)).length + 1) := by
      rw [hname]
      unfold printRootFolder overwrite
      show (printed (cString rootFolder) ++ [0]) ++ _ = _
      rw [List.append_assoc, List.length_append]
      rfl
    refine ⟨?_, ?_, ?_⟩
    · rw [hprint, List.length_append, List.length_cons, List.length_drop, List.length_replicate]
      omega
    · rw [hprint, List.take_left]
    · rw [hlength, ← hname, hprint, cString_terminated, cString_of_no_nul hnul]

end

/-! ## A request -/

/-- What the request asks for behind the root folder. -/
def fileOf (url : Bytes) : Bytes := if url = [slash] then indexHtml else url

/-- The root folder, a slash and the file fit, or the request is rejected because they do not. -/
def FitsName (root url : Bytes) : Prop :=
  (url = [slash] → root.length + 1 + indexHtml.length ≤ MAX_FILE_NAME) ∧
    (url ≠ [slash] → root.length + 1 < MAX_FILE_NAME ∨ 2 ≤ url.length)

instance (root url : Bytes) : Decidable (FitsName root url) :=
  inferInstanceAs (Decidable ((_ → _) ∧ (_ → _)))

/-- The data of an executor holds a request with a URL that is accepted. -/
structure Accepted (d : ExecutorData) (request : HttpRequest) (url : Bytes) : Prop where
  parsed : ∃ window, d.buffer.startRead = some window ∧
    d.request.parse (d.buffer.slice window.start (window.start + window.size)) =
      some (.finishOk, request)
  getUrl : request.getUrl = some url

/-- The request is rejected, or it is handed to an upstream server and no file is named, or the
name is composed byte by byte inside the buffer and it is the right one. -/
inductive Composed (root url : Bytes) (loop loop' : PollLoop) : ParseRequestResult → Prop
  | invalid : Composed root url loop loop' .invalid
  | proxy (h : loop'.fileNameBuffer = loop.fileNameBuffer) : Composed root url loop loop' .proxy
  | file (hstored : nameFileAt loop.fileNameBuffer loop.rootFolderLength url =
        some (.file, loop'.fileNameBuffer))
      (hname : cString loop'.fileNameBuffer = root ++ slash :: fileOf url) :
      Composed root url loop loop' .file

theorem nameFileAt_length {buffer buffer' url : Bytes} {n : Nat} {result : ParseRequestResult}
    (h : nameFileAt buffer n url = some (result, buffer')) : buffer'.length = buffer.length := by
  unfold nameFileAt at h
  split at h
  · cases h
  · rename_i cut hcut
    rw [← storeFrom_length hcut]
    have hnamed : ∀ name, (strcatAt cut name).map (ParseRequestResult.file, ·) =
        some (result, buffer') → buffer'.length = cut.length := by
      intro name hname
      obtain ⟨b, hb, heq⟩ := Option.map_eq_some_iff.mp hname
      rw [← (Prod.mk.inj heq).2]
      exact storeFrom_length hb
    split at h
    · exact hnamed _ h
    · split at h
      · exact hnamed _ h
      · rw [← (Prod.mk.inj (Option.some.inj h)).2]

section
variable {root name url : Bytes} {loop loop' : PollLoop} {w : World} {l r : Nat}

theorem Composed.whole (h : Composed root url loop loop' .file) (hwhole : Whole loop) :
    Whole loop' := by
  cases h with
  | file hstored hname =>
    rw [Whole, nameFileAt_length hstored]
    exact hwhole

theorem Printed.nameFileAt_eq (h : Printed root loop) (url : Bytes) :
    nameFileAt loop.fileNameBuffer loop.rootFolderLength url =
      if url = [slash] then (strcatAt (cutFileName loop) indexHtml).map (.file, ·)
      else if loop.rootFolderLength + url.length ≤ MAX_FILE_NAME then
        (strcatAt (cutFileName loop) url).map (.file, ·)
      else some (.invalid, cutFileName loop) := by
  have hcut : storeFrom loop.fileNameBuffer loop.rootFolderLength [0] =
      some (cutFileName loop) := by
    have hlt := printed_lt root
    rw [storeFrom, if_pos (by rw [h.length]; omega)]
    rfl
  unfold nameFileAt
  rw [hcut]

/-- A name that is appended stays inside the buffer and follows the whole root folder. -/
theorem Printed.appended_iff (h : Printed root loop) (hroot : 0 ∉ root) (hname : 0 ∉ name) :
    (strcatAt (cutFileName loop) name = some (strcat (cutFileName loop) name) ∧
        cString (strcat (cutFileName loop) name) = root ++ slash :: name) ↔
      (printed root).length + name.length ≤ MAX_FILE_NAME ∧ root.length + 1 < MAX_FILE_NAME := by
  obtain ⟨rest, hcut, hrest⟩ := h.cut
  have hnul := noNul_printed hroot
  have hnamed : cString (strcat (cutFileName loop) name) = printed root ++ name := by
    rw [hcut, Containment.strcat_terminated hnul, ← List.append_assoc, cString_terminated,
      cString_of_no_nul]
    simp only [List.mem_append, not_or]
    exact ⟨hnul, hname⟩
  rw [hnamed, hcut]
  constructor
  · rintro ⟨hstored, heq⟩
    refine ⟨?_, ?_⟩
    · by_contra hover
      rw [strcatAt_over hnul (Nat.lt_of_not_le hover)] at hstored
      cases hstored
    · have hlength := congrArg List.length heq
      rw [List.length_append, List.length_append, List.length_cons] at hlength
      have hlt := printed_lt root
      omega
  · rintro ⟨hfits, hwhole⟩
    refine ⟨strcatAt_fits hnul hfits hrest, ?_⟩
    have hprinted : printed root = root ++ [slash] := by
      refine List.take_of_length_le ?_
      rw [List.length_append, List.length_singleton]
      omega
    rw [hprinted]
    simp

/-- What `nameFile` returns and leaves in the buffer. -/
def outcome (loop : PollLoop) (url : Bytes) : ParseRequestResult × Bytes :=
  if url = [slash] then (.file, strcat (cutFileName loop) indexHtml)
  else if loop.rootFolderLength + url.length ≤ MAX_FILE_NAME then
    (.file, strcat (cutFileName loop) url)
  else (.invalid, cutFileName loop)

theorem nameFile_outcome (w : World) (l : Nat) (url : Bytes) : ∃ w',
    nameFile l url w = some ((outcome (w.loops l) url).1, w') ∧
      (w'.loops l).fileNameBuffer = (outcome (w.loops l) url).2 := by
  unfold nameFile outcome
  by_cases hslash : url = [slash]
  · rw [if_pos hslash, if_pos hslash]
    exact ⟨_, rfl, by rw [World.setLoop_self, World.setLoop_self]⟩
  · rw [if_neg hslash, if_neg hslash]
    have hlength : ((w.setLoop l { w.loops l with
        fileNameBuffer := cutFileName (w.loops l) }).loops l).rootFolderLength =
          (w.loops l).rootFolderLength := by
      rw [World.setLoop_self]
    show ∃ w', (if ((w.setLoop l { w.loops l with
        fileNameBuffer := cutFileName (w.loops l) }).loops l).rootFolderLength + url.length ≤
          MAX_FILE_NAME then (do appendFileName l url; return .file) else return .invalid :
        Prog ParseRequestResult) _ = _ ∧ _
    rw [hlength]
    split
    · exact ⟨_, rfl, by rw [World.setLoop_self, World.setLoop_self]⟩
    · exact ⟨_, rfl, by rw [World.setLoop_self]⟩

theorem Printed.composed_iff (h : Printed root loop) (hroot : 0 ∉ root) (hurl : 0 ∉ url)
    (hwhole : Whole loop) (hbuffer : loop'.fileNameBuffer = (outcome loop url).2) :
    (Composed root url loop loop' (outcome loop url).1 ∧ Whole loop') ↔ FitsName root url := by
  have hlength := printed_length root
  have hmax : MAX_FILE_NAME = 300 := rfl
  have hfile : ∀ name, fileOf url = name → 0 ∉ name →
      nameFileAt loop.fileNameBuffer loop.rootFolderLength url =
        (strcatAt (cutFileName loop) name).map (.file, ·) →
      loop'.fileNameBuffer = strcat (cutFileName loop) name →
      (Composed root url loop loop' .file ∧ Whole loop' ↔
        (printed root).length + name.length ≤ MAX_FILE_NAME ∧
          root.length + 1 < MAX_FILE_NAME) := by
    intro name hof hname hat heq
    rw [← h.appended_iff hroot hname]
    constructor
    · rintro ⟨hcomposed, _⟩
      cases hcomposed with
      | file hstored hnamed =>
        rw [heq, hof] at hnamed
        rw [hat, heq] at hstored
        refine ⟨?_, hnamed⟩
        obtain ⟨buffer, hsome, hpair⟩ := Option.map_eq_some_iff.mp hstored
        rw [hsome, (Prod.mk.inj hpair).2]
    · rintro ⟨hstored, hnamed⟩
      have hcomposed : Composed root url loop loop' .file := by
        refine .file ?_ ?_
        · rw [hat, hstored, heq]
          rfl
        · rw [heq, hof]
          exact hnamed
      exact ⟨hcomposed, hcomposed.whole hwhole⟩
  unfold outcome at hbuffer ⊢
  have hat := h.nameFileAt_eq url
  unfold FitsName
  by_cases hslash : url = [slash]
  · rw [if_pos hslash] at hbuffer hat ⊢
    rw [hfile indexHtml (if_pos hslash) (by decide) hat hbuffer]
    have hindex : indexHtml.length = 10 := rfl
    simp only [hslash, ne_eq, not_true_eq_false, false_implies, and_true, forall_const]
    omega
  · rw [if_neg hslash] at hbuffer hat ⊢
    by_cases hle : loop.rootFolderLength + url.length ≤ MAX_FILE_NAME
    · rw [if_pos hle] at hbuffer hat ⊢
      rw [hfile url (if_neg hslash) hurl hat hbuffer]
      rw [h.length] at hle
      simp only [hslash, ne_eq, not_false_eq_true, false_implies, true_and, forall_const]
      omega
    · rw [if_neg hle]
      refine ⟨fun _ => ⟨fun heq => absurd heq hslash, fun _ => ?_⟩, fun _ => ⟨.invalid, ?_⟩⟩
      · rw [h.length] at hle
        omega
      · rw [if_neg hle] at hbuffer
        rw [Whole, hbuffer]
        unfold cutFileName
        rw [List.length_set]
        exact hwhole

theorem Composed.congr {before after : PollLoop} {result : ParseRequestResult}
    (h : Composed root url loop loop' result)
    (hbefore : before.fileNameBuffer = loop.fileNameBuffer)
    (hlength : before.rootFolderLength = loop.rootFolderLength)
    (hafter : after.fileNameBuffer = loop'.fileNameBuffer) :
    Composed root url before after result := by
  cases h with
  | invalid => exact .invalid
  | proxy h => exact .proxy (by rw [hafter, hbefore, h])
  | file hstored hname =>
    exact .file (by rw [hbefore, hlength, hafter]; exact hstored) (by rw [hafter]; exact hname)

/-- A request that is accepted is dispatched. -/
theorem Accepted.parseRequest {request : HttpRequest} (h : Accepted (w.data l r) request url) :
    parseRequest l r w =
      dispatchRequest l r request (w.setData l r { w.data l r with request := request }) := by
  obtain ⟨window, hwindow, hparse⟩ := h.parsed
  rw [RequestExecutor.parseRequest, getData_bind, hwindow]
  dsimp only
  rw [hparse]
  rfl

end

section
variable {parameters : ServerParameters} {w : World} {l r : Nat}
variable {request : HttpRequest} {root url : Bytes}

theorem url_noNul (h : request.getUrl = some url) : 0 ∉ url := by
  unfold getUrl at h
  split at h
  · cases h
  · rw [← Option.some.inj h]
    exact no_nul_cString _

theorem dispatchRequest_composed (h : Printed root (w.loops l)) (hroot : 0 ∉ root)
    (hwhole : Whole (w.loops l)) (hurl : request.getUrl = some url) :
    (∃ result w', dispatchRequest l r request w = some (result, w') ∧
        Composed root url (w.loops l) (w'.loops l) result ∧ Whole (w'.loops l)) ↔
      (findProxy w.parameters.proxies request = none → FitsName root url) := by
  rw [dispatchRequest, getData_bind, get_bind]
  cases findProxy w.parameters.proxies request with
  | some proxy =>
    refine ⟨fun _ hnone => (by cases hnone), fun _ => ?_⟩
    dsimp only
    split
    · exact ⟨_, _, rfl, .invalid, hwhole⟩
    · refine ⟨_, _, rfl, .proxy ?_, ?_⟩
      · rw [World.setData_loops]
      · rw [World.setData_loops]
        exact hwhole
  | none =>
    rw [hurl]
    obtain ⟨w', hrun, hbuffer⟩ := nameFile_outcome w l url
    have hcomposed := h.composed_iff hroot (url_noNul hurl) hwhole hbuffer
    constructor
    · rintro ⟨result, w'', hresult, h'⟩ _
      obtain ⟨rfl, rfl⟩ := Prod.mk.inj (Option.some.inj (hrun.symm.trans hresult))
      exact hcomposed.mp h'
    · intro hfits
      exact ⟨_, w', hrun, hcomposed.mpr (hfits rfl)⟩

theorem parseRequest_composed (h : Printed root (w.loops l)) (hroot : 0 ∉ root)
    (hwhole : Whole (w.loops l)) (haccepted : Accepted (w.data l r) request url) :
    (∃ result w', parseRequest l r w = some (result, w') ∧
        Composed root url (w.loops l) (w'.loops l) result ∧ Whole (w'.loops l)) ↔
      (findProxy w.parameters.proxies request = none → FitsName root url) := by
  obtain ⟨execDatas, hloop⟩ : ∃ execDatas,
      (w.setData l r { w.data l r with request := request }).loops l =
        { w.loops l with execDatas := execDatas } := ⟨_, World.setData_loops ..⟩
  have hdispatch : _ ↔ (findProxy w.parameters.proxies request = none → FitsName root url) :=
    dispatchRequest_composed (r := r) (w := w.setData l r { w.data l r with request := request })
      (by rw [hloop]; exact ⟨h.size, h.folder, h.length⟩) hroot (by rw [hloop]; exact hwhole)
      haccepted.getUrl
  rw [haccepted.parseRequest, ← hdispatch]
  constructor
  · rintro ⟨result, w', hresult, h', hwhole'⟩
    exact ⟨result, w', hresult, h'.congr (by rw [hloop]) (by rw [hloop]) rfl, hwhole'⟩
  · rintro ⟨result, w', hresult, h', hwhole'⟩
    exact ⟨result, w', hresult, h'.congr (by rw [hloop]) (by rw [hloop]) rfl, hwhole'⟩

/-! ## Behind `init` -/

theorem createEventFd_named {ans : Answers} : Ensures (createEventFd ans l) w (fun created w' =>
    created = 0 → (w'.loops l).fileNameBuffer = (w.loops l).fileNameBuffer) := by
  have hfails : ∀ w', Ensures (return -1 : Prog Int) w' (fun created w' =>
      created = 0 → (w'.loops l).fileNameBuffer = (w.loops l).fileNameBuffer) := fun _ =>
    ensures_pure.mpr (fun hzero => absurd hzero (by decide))
  rw [createEventFd, ensures_bind]
  refine newDescriptor_spec.mono (fun fd w1 hnew => ?_)
  have h1 : w1.loops = w.loops := by
    rcases hnew with ⟨_, rfl⟩ | ⟨_, _, rfl⟩
    · rfl
    · rfl
  rw [ensures_bind, ensures_modifyLoop, ensures_ite]
  refine ⟨fun _ => hfails _, fun _ => ?_⟩
  rw [ensures_bind]
  refine createExecutorData_spec (fun r w2 hh => ?_)
  rw [ensures_bind, ensures_modifyData, ensures_bind]
  have h2 : (w2.loops l).fileNameBuffer = (w.loops l).fileNameBuffer := by
    obtain ⟨_, _, rfl⟩ := hh
    rw [World.setLoop_self, World.setLoop_self, h1]
  refine addPollFd_spec.mono (fun added w3 hadd => ?_)
  rw [ensures_ite, ensures_bind, ensures_bind]
  refine ⟨fun _ _ w4 _ => hfails w4, fun hadded => ?_⟩
  rw [ensures_modifyData, ensures_pure]
  intro _
  rcases hadd with ⟨_, p, ha⟩ | ⟨hnone, _⟩
  · obtain ⟨_, _, _, _, _, rfl⟩ := ha
    rw [World.setData_loops, World.rewatch_self, World.setData_loops, World.setData_loops]
    exact h2
  · exact absurd hnone (by rw [not_not.mp hadded]; decide)

/-- `init` leaves the buffer as it has printed it. -/
theorem init_named {ans : Answers} : Ensures (init ans l) w (fun _ w' =>
    (w'.loops l).phase = .waiting →
      (w'.loops l).fileNameBuffer = printRootFolder w.parameters.rootFolder) := by
  have hdestroy : ∀ w1, Ensures (destroy l) w1 (fun _ w' => (w'.loops l).phase = .waiting →
      (w'.loops l).fileNameBuffer = printRootFolder w.parameters.rootFolder) := by
    refine fun w1 => (destroy_vacated w1).mono (fun _ w' hv hwaiting => ?_)
    rcases hv.phase with heq | ⟨fd, heq⟩
    · cases hwaiting.symm.trans heq
    · cases hwaiting.symm.trans heq
  rw [init, ensures_bind, ensures_get, ensures_bind, ensures_modifyLoop, ensures_bind]
  refine newDescriptor_spec.mono (fun fd w1 hnew => ?_)
  have h1 : (w1.loops l).fileNameBuffer = printRootFolder w.parameters.rootFolder := by
    rcases hnew with ⟨_, rfl⟩ | ⟨_, _, rfl⟩
    · rw [World.setLoop_self]
    · rw [World.setKernel_loops, World.setLoop_self]
  rw [ensures_bind, ensures_modifyLoop, ensures_ite]
  refine ⟨fun _ => hdestroy _, fun _ => ?_⟩
  rw [ensures_bind]
  refine createEventFd_named.mono (fun created w2 h2 => ?_)
  rw [ensures_ite]
  refine ⟨fun _ => hdestroy w2, fun hcreated => ?_⟩
  rw [setPhase, ensures_modifyLoop]
  intro _
  rw [World.setLoop_self]
  have hkept := h2 (not_not.mp hcreated)
  rw [World.setLoop_self] at hkept
  exact hkept.trans h1

/-- A request that comes first finds a buffer with no byte behind it, whatever the root folder. -/
theorem init_whole {w' : World} {ans : Answers}
    (hstep : Operation.step w (.init l ans) = some w') : Whole (w'.loops l) := by
  have hinit : Ensures (Operation.initLoop ans l) w (fun _ w' => (w'.loops l).fileNameBuffer =
      printRootFolder w.parameters.rootFolder) := by
    rw [Operation.initLoop, ensures_bind, ensures_getLoop]
    cases (w.loops l).phase with
    | created =>
      dsimp only
      rw [ensures_bind]
      refine init_named.mono (fun _ w1 h1 => ?_)
      exact (Operation.onLoop_spec (fun hphase => ensures_pure.mpr (h1 hphase))).mono
        (fun _ _ h => h.2)
    | _ => exact ensures_fail.mpr trivial
  obtain ⟨⟨_, w1⟩, hrun, rfl⟩ := Option.map_eq_some_iff.mp hstep
  rw [Whole, hinit _ _ hrun, printRootFolder_length]

/-- The loop that is called has no byte behind its buffer. -/
def Unspoilt (w : World) (op : Operation) : Prop := op.initialises = true ∨ Whole (w.loops op.loop)

instance (w : World) (op : Operation) : Decidable (Unspoilt w op) :=
  inferInstanceAs (Decidable (_ ∨ _))

/-- Behind a root folder that leaves room for `index.html`, no byte is ever stored behind a
buffer. -/
theorem run_unspoilt (hfits : Containment.Fits (cString parameters.rootFolder))
    {ops : List Operation}
    (hrun : Run.run Operation.step { parameters := parameters } ops = some w) :
    Run.run (Run.guard Unspoilt Operation.step) { parameters := parameters } ops = some w ∧
      ((w.loops l).phase.Started → Whole (w.loops l)) := by
  have hwhole : ∀ {w : World} {l : Nat}, Containment.Housed w → (w.loops l).phase.Started →
      Whole (w.loops l) := fun h hstarted => Nat.le_of_eq (h.rooted _ hstarted).size
  refine ⟨?_, hwhole (Containment.run_housed hfits hrun).1⟩
  refine Run.run_mono (P := fun w => Containment.Housed w ∧ w.parameters = parameters)
    (fun w op w' h hstep => ⟨Run.guard_of ?_ hstep, ?_⟩)
    ⟨⟨steady_start parameters, fun _ hstarted => False.elim hstarted⟩, rfl⟩ hrun
  · refine (Operation.step_waits hstep).imp_right (fun hwaiting => hwhole h.1 ?_)
    rw [hwaiting]
    trivial
  · obtain ⟨hhoused, hkept⟩ := Containment.step_housed (by rw [h.2]; exact hfits) h.1 hstep
    exact ⟨hhoused, hkept.trans h.2⟩

/-- In every state that is reached while no byte was stored behind a buffer: an accepted request
goes to a proxy, or its name is composed inside the buffer and is the right one, exactly when a
proxy takes it or root folder and file fit. -/
theorem run_composed {ops : List Operation}
    (hrun : Run.run (Run.guard Unspoilt Operation.step) { parameters := parameters } ops = some w)
    (hphase : (w.loops l).phase = .waiting) (hwhole : Whole (w.loops l)) (k : Kernel)
    {d : ExecutorData} (haccepted : Accepted d request url) :
    (printAt parameters.rootFolder = some (printRootFolder parameters.rootFolder) ∧
        ∃ result w', parseRequest l r ((w.setKernel k).setData l r d) = some (result, w') ∧
          Composed (cString parameters.rootFolder) url
            (((w.setKernel k).setData l r d).loops l) (w'.loops l) result ∧
          Whole (w'.loops l)) ↔
      (findProxy parameters.proxies request = none →
        FitsName (cString parameters.rootFolder) url) := by
  obtain ⟨hprinted, hkept⟩ := printed_kept.run (l := l) (Run.run_of_guard hrun)
    (by rw [hphase]; trivial)
  have hproxies : ((w.setKernel k).setData l r d).parameters = parameters := hkept
  rw [and_iff_right (printAt_eq _), parseRequest_composed _ (no_nul_cString _), hproxies]
  · rw [World.setData_loops]
    exact hwhole
  · rw [World.setData_self]
    exact haccepted
  · rw [World.setData_loops]
    exact printed_kept.congr hprinted rfl rfl

/-- Whether the data holds a request with this URL that is accepted. -/
def accepts (d : ExecutorData) (url : Bytes) : Bool :=
  d.buffer.startRead.any (fun window =>
    (d.request.parse (d.buffer.slice window.start (window.start + window.size))).any
      (fun parsed => decide (parsed.1 = .finishOk ∧ parsed.2.getUrl = some url)))

theorem accepted_of_accepts {d : ExecutorData} (h : accepts d url = true) :
    ∃ request, Accepted d request url := by
  obtain ⟨window, hwindow, h⟩ := (Option.any_eq_true _ _).mp h
  obtain ⟨parsed, hparsed, h⟩ := (Option.any_eq_true _ _).mp h
  obtain ⟨hok, hurl⟩ := of_decide_eq_true h
  obtain ⟨result, request⟩ := parsed
  obtain rfl : result = .finishOk := hok
  exact ⟨request, ⟨window, hwindow, hparsed⟩, hurl⟩

/-- A root folder of 290 bytes. -/
def longRoot : Bytes := slash :: List.replicate 289 97

def getSlash : Bytes := HttpResponse.ascii "GET / HTTP/1.1\r\nHost: a\r\n\r\n"

def getFile : Bytes := HttpResponse.ascii "GET /b.txt HTTP/1.1\r\nHost: a\r\n\r\n"

/-- A file with a short name fits behind it, also after another client was served. -/
theorem run_composed_longRoot : ∃ w request,
    Run.run (Run.guard Unspoilt Operation.step) { parameters := { rootFolder := longRoot } }
      Containment.servedClient = some w ∧
    Accepted (received getFile) request [47, 98, 46, 116, 120, 116] ∧
    ∃ result w', parseRequest 0 2 ((w.setKernel w.kernel).setData 0 2 (received getFile)) =
        some (result, w') ∧
      Composed (cString longRoot) [47, 98, 46, 116, 120, 116]
        (((w.setKernel w.kernel).setData 0 2 (received getFile)).loops 0) (w'.loops 0) result ∧
      Whole (w'.loops 0) := by
  obtain ⟨request, haccepted⟩ : ∃ request,
      Accepted (received getFile) request [47, 98, 46, 116, 120, 116] :=
    accepted_of_accepts (by decide +kernel)
  have hrun : (Run.run (Run.guard Unspoilt Operation.step)
      { parameters := { rootFolder := longRoot } } Containment.servedClient).any
        (fun w => (w.loops 0).phase.waits && decide (Whole (w.loops 0))) = true := by
    decide +kernel
  obtain ⟨w, hw, hboth⟩ := (Option.any_eq_true _ _).mp hrun
  obtain ⟨hwaiting, hwhole⟩ := Bool.and_eq_true_iff.mp hboth
  obtain ⟨_, hcomposed⟩ := (run_composed (r := 2) hw (Phase.waits_iff.mp hwaiting)
    (of_decide_eq_true hwhole) w.kernel haccepted).mpr (fun _ => by decide +kernel)
  exact ⟨w, request, hw, haccepted, hcomposed⟩

/-- `index.html` does not fit behind it. -/
theorem longRoot_overflows : ∃ w request,
    Run.run Operation.step { parameters := { rootFolder := longRoot } }
        [.init 0 { epollCreate := 3, eventfd := 4 }] = some w ∧
      Accepted (received getSlash) request [slash] ∧
      ¬ ∃ result w', parseRequest 0 2 (w.setData 0 2 (received getSlash)) = some (result, w') ∧
        Composed (cString longRoot) [slash] ((w.setData 0 2 (received getSlash)).loops 0)
          (w'.loops 0) result := by
  obtain ⟨request, haccepted⟩ : ∃ request, Accepted (received getSlash) request [slash] :=
    accepted_of_accepts (by decide +kernel)
  have hrun : (Run.run Operation.step { parameters := { rootFolder := longRoot } }
      [.init 0 { epollCreate := 3, eventfd := 4 }]).any (fun w => (w.loops 0).phase.waits &&
        decide (Whole (w.loops 0)) && (parseRequest 0 2 (w.setData 0 2 (received getSlash))).any
          (fun parsed => decide (parsed.1 = .file))) = true := by
    decide +kernel
  obtain ⟨w, hw, hall⟩ := (Option.any_eq_true _ _).mp hrun
  obtain ⟨hboth, hany⟩ := Bool.and_eq_true_iff.mp hall
  obtain ⟨hwaiting, hwhole⟩ := Bool.and_eq_true_iff.mp hboth
  have hphase := Phase.waits_iff.mp hwaiting
  obtain ⟨hprinted, hkept⟩ := printed_kept.run (l := 0) hw (by rw [hphase]; trivial)
  have hproxies : (w.setData 0 2 (received getSlash)).parameters.proxies = [] :=
    congrArg ServerParameters.proxies hkept
  have hwhole' : Whole ((w.setData 0 2 (received getSlash)).loops 0) := by
    rw [World.setData_loops]
    exact of_decide_eq_true hwhole
  have hfolder : Printed (cString longRoot) ((w.setData 0 2 (received getSlash)).loops 0) := by
    rw [World.setData_loops]
    exact printed_kept.congr hprinted rfl rfl
  have hdata : Accepted ((w.setData 0 2 (received getSlash)).data 0 2) request [47] := by
    rw [World.setData_self]
    exact haccepted
  have hiff := parseRequest_composed hfolder (no_nul_cString _) hwhole' hdata
  refine ⟨w, request, hw, haccepted, ?_⟩
  rintro ⟨result, w', hresult, hcomposed⟩
  obtain ⟨⟨_, w''⟩, hparse, hfile⟩ := (Option.any_eq_true _ _).mp hany
  obtain ⟨rfl, rfl⟩ := Prod.mk.inj (Option.some.inj (hresult.symm.trans hparse))
  obtain rfl : result = .file := of_decide_eq_true hfile
  rw [hproxies] at hiff
  exact absurd (hiff.mp ⟨_, w', hresult, hcomposed, hcomposed.whole hwhole'⟩ rfl)
    (by decide +kernel)

end

end FileNaming
end EpollHttp
