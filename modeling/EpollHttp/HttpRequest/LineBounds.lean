import EpollHttp.HttpRequest.RoundTrip
import EpollHttp.HttpRequest.Finished

/-
Recorded fields and the lines of the data.

The lines of a head are its longest runs without a line break, up to the run of line breaks with
two line feeds.  Every scanner but the one of the URL parameters stops at a line break, so the
recorded headers are the lines behind the request line as soon as the target ends in its line.
-/

namespace EpollHttp
namespace HttpRequest

open CString

/-! ## Lines -/

/-- The lines of a head that begins at `start`, up to its blank line. -/
inductive HeadLines : Nat → Bytes → List Field → Prop
  | last {start : Nat} {line closing body : Bytes} (hline : ∀ c ∈ line, isBreak c = false)
      (hclosing : IsClosing closing) (hbody : ∀ c, body.head? = some c → isBreak c = false) :
      HeadLines start (line ++ (closing ++ body)) [{ start := start, length := line.length }]
  | cons {start : Nat} {line run rest : Bytes} {lines : List Field}
      (hline : ∀ c ∈ line, isBreak c = false) (hrun : IsLineBreak run)
      (hrest : ∀ c, rest.head? = some c → isBreak c = false)
      (hlines : HeadLines (start + line.length + run.length) rest lines) :
      HeadLines start (line ++ (run ++ rest)) ({ start := start, length := line.length } :: lines)

/-- Name and value lie in order on the line, from its first byte to its last. -/
structure OnLine (head : Header) (line : Field) : Prop where
  start : head.key.start = line.start
  order : head.key.Behind head.value
  stop : head.value.stop = line.stop

/-- The fields of the request line lie in front of the first line break, the recorded headers are
the lines behind it, and no field holds a line break. -/
structure LineBound (r : HttpRequest) : Prop where
  lines : ∃ requestLine headerLines, HeadLines 0 r.data (requestLine :: headerLines) ∧
    (∀ f ∈ [r.methodField, r.urlField, r.urlParametersField], f.stop ≤ requestLine.stop) ∧
    List.Forall₂ OnLine r.headers headerLines
  breaks : ∀ f ∈ r.ranges, ∀ c ∈ r.fieldBytes f, isBreak c = false

/-- In front of the first line break a space stands behind the spaces in front of the target. -/
def TargetEnds (data : Bytes) : Prop :=
  space ∈ ((data.takeWhile (!isBreak ·)).dropWhile (· != space)).dropWhile (· == space)

/-! ## Where the headers of a head are -/

def headerAt (start : Nat) (l : HeaderLine) : Header where
  key := { start := start, length := l.key.length }
  value := { start := start + l.key.length + l.sep.length, length := l.value.length }

def rows : Nat → List BrokenLine → List Header
  | _, [] => []
  | start, x :: lines => headerAt start x.1 :: rows (start + x.1.bytes.length + x.2.length) lines

theorem rows_append (start : Nat) (lines : List BrokenLine) (x : BrokenLine) :
    rows start (lines ++ [x]) =
      rows start lines ++ [headerAt (start + (linesBytes lines).length) x.1] := by
  induction lines generalizing start with
  | nil => simp [rows, linesBytes]
  | cons y lines ih =>
    show headerAt start y.1 :: rows _ (lines ++ [x]) = _
    rw [ih]
    have hlen : (linesBytes (y :: lines)).length =
        y.1.bytes.length + y.2.length + (linesBytes lines).length := by
      simp [linesBytes, Nat.add_assoc]
    rw [hlen]
    simp [rows, Nat.add_assoc]

theorem tookHeaderLine_headers (r : HttpRequest) (l : HeaderLine) :
    (r.tookHeaderLine l).headers = r.headers ++ [headerAt r.cur l] := rfl

theorem afterLines_headers (data urlBuffer : Bytes) (l : RequestLine) (lines : List BrokenLine) :
    (afterLines data urlBuffer l lines).headers = rows l.bytes.length lines := by
  induction lines using List.reverseRecOn with
  | nil =>
    show (afterTarget data urlBuffer l.target).headers = []
    unfold afterTarget
    split <;> rfl
  | append_singleton lines x ih =>
    rw [afterLines_append, rows_append]
    show ((afterLines data urlBuffer l lines).tookHeaderLine x.1).headers = _
    rw [tookHeaderLine_headers, ih, afterLines_cur]

theorem afterHead_headers (data urlBuffer : Bytes) (h : Head) :
    (afterHead data urlBuffer h).headers = rows h.requestLine.bytes.length h.lines ++
      [headerAt (h.requestLine.bytes.length + (linesBytes h.lines).length) h.last] := by
  unfold afterHead
  rw [tookHeaderLine_headers, afterLines_headers, afterLines_cur]

theorem headerAt_onLine (start : Nat) (l : HeaderLine) :
    OnLine (headerAt start l) { start := start, length := l.bytes.length } where
  start := rfl
  order := Nat.le_add_right (start + l.key.length) l.sep.length
  stop := by
    unfold headerAt Field.stop HeaderLine.bytes
    simp only [List.length_append]
    omega

theorem HeaderLine.WellFormed.no_break {l : HeaderLine} (hl : l.WellFormed) :
    ∀ c ∈ l.bytes, isBreak c = false := by
  intro c hc
  unfold HeaderLine.bytes at hc
  rcases List.mem_append.mp hc with hc | hc
  · exact (readHeaderKeySymbols_visible (hl.key c hc))
  · rcases List.mem_append.mp hc with hc | hc
    · have hsep := hl.sep c hc
      unfold isHeaderSpace at hsep
      rw [Bool.or_eq_true, beq_iff_eq, beq_iff_eq] at hsep
      rcases hsep with rfl | rfl <;> rfl
    · exact hl.value c hc

/-- A line break is followed by a header line. -/
theorem headerLines_head {lines : List BrokenLine} {last : HeaderLine} {back : Bytes}
    (hlines : ∀ x ∈ lines, x.1.WellFormed ∧ IsLineBreak x.2) (hlast : last.WellFormed) (c : UInt8)
    (hc : (linesBytes lines ++ (last.bytes ++ back)).head? = some c) : isBreak c = false := by
  have hhead : ∃ d rest, linesBytes lines ++ (last.bytes ++ back) = d :: rest ∧
      isBreak d = false := by
    cases lines with
    | nil => exact hlast.head back
    | cons x lines =>
      have hsplit : linesBytes (x :: lines) ++ (last.bytes ++ back) =
          x.1.bytes ++ (x.2 ++ (linesBytes lines ++ (last.bytes ++ back))) := by
        simp [linesBytes]
      rw [hsplit]
      exact (hlines x List.mem_cons_self).1.head _
  obtain ⟨d, rest, heq, hd⟩ := hhead
  rw [heq] at hc
  rwa [← Option.some.inj hc]

/-- The header lines of a head are lines of the data, and the headers lie on them. -/
theorem headLines_rows {lines : List BrokenLine} {last : HeaderLine} {back : Bytes} (start : Nat)
    (hlines : ∀ x ∈ lines, x.1.WellFormed ∧ IsLineBreak x.2) (hlast : last.WellFormed)
    (hback : 1 < lineBreakCounter (back.takeWhile isBreak)) :
    ∃ fields, HeadLines start (linesBytes lines ++ (last.bytes ++ back)) fields ∧
      List.Forall₂ OnLine
        (rows start lines ++ [headerAt (start + (linesBytes lines).length) last]) fields := by
  induction lines generalizing start with
  | nil =>
    have hsplit : linesBytes [] ++ (last.bytes ++ back) =
        last.bytes ++ (back.takeWhile isBreak ++ back.dropWhile isBreak) := by
      rw [List.takeWhile_append_dropWhile]
      rfl
    refine ⟨[{ start := start, length := last.bytes.length }], ?_,
      .cons (headerAt_onLine start last) .nil⟩
    rw [hsplit]
    refine HeadLines.last hlast.no_break ⟨fun c hc => Scan.token_class hc, hback⟩ (fun c hc => ?_)
    cases hbody : back.dropWhile isBreak with
    | nil =>
      rw [hbody] at hc
      simp at hc
    | cons d body =>
      rw [hbody] at hc
      rw [← Option.some.inj hc]
      exact Scan.stop_not hbody
  | cons x lines ih =>
    obtain ⟨hx, hbreak⟩ := hlines x List.mem_cons_self
    obtain ⟨fields, hfields, hrows⟩ := ih (start + x.1.bytes.length + x.2.length)
      (fun y hy => hlines y (List.mem_cons_of_mem x hy))
    have hsplit : linesBytes (x :: lines) ++ (last.bytes ++ back) =
        x.1.bytes ++ (x.2 ++ (linesBytes lines ++ (last.bytes ++ back))) := by
      simp [linesBytes]
    have hlen : start + (linesBytes (x :: lines)).length =
        start + x.1.bytes.length + x.2.length + (linesBytes lines).length := by
      simp [linesBytes, Nat.add_assoc]
    have hhead : ∀ c, (linesBytes lines ++ (last.bytes ++ back)).head? = some c →
        isBreak c = false :=
      headerLines_head (fun y hy => hlines y (List.mem_cons_of_mem x hy)) hlast
    refine ⟨{ start := start, length := x.1.bytes.length } :: fields, ?_, ?_⟩
    · rw [hsplit]
      exact HeadLines.cons hx.no_break hbreak hhead hfields
    · rw [hlen]
      exact .cons (headerAt_onLine start x.1) hrows

/-! ## The request line -/

/-- A scan past the spaces finds no space where there is none. -/
theorem dropSpaces_no_space {spaces w : Bytes} (hspaces : ∀ c ∈ spaces, c = space)
    (hw : space ∉ w) : space ∉ (spaces ++ w).dropWhile (· == space) := by
  rw [List.dropWhile_append_of_pos (fun c hc => by simpa using hspaces c hc)]
  exact fun h => hw ((List.dropWhile_suffix _).subset h)

theorem Target.WellFormed.spaces_cons {t : Target} (ht : t.WellFormed) :
    ∃ more, t.spaces = space :: more := by
  obtain ⟨c, more, heq⟩ := List.exists_cons_of_ne_nil ht.spaces_ne
  exact ⟨more, by rw [heq, ht.spaces c (by rw [heq]; simp)]⟩

theorem isUpper_visible {c : UInt8} (h : isUpper c = true) : c ≠ space ∧ isBreak c = false := by
  constructor
  · rintro rfl
    exact absurd h (by decide)
  · by_contra hb
    rw [Bool.not_eq_false] at hb
    rcases isBreak_iff.mp hb with rfl | rfl <;> exact absurd h (by decide)

/-- What is left of a request line behind the method and the spaces. -/
theorem Target.WellFormed.dropMethod {t : Target} (ht : t.WellFormed) (w : Bytes) :
    ((t.method ++ (t.spaces ++ w)).dropWhile (· != space)) = t.spaces ++ w := by
  obtain ⟨more, hmore⟩ := ht.spaces_cons
  rw [hmore, List.cons_append]
  refine Scan.dropWhile_token (fun c hc => ?_) (by simp)
  simpa using (isUpper_visible (ht.method c hc)).1

/-- The method and the spaces hold no line break. -/
theorem Target.WellFormed.front_no_break {t : Target} (ht : t.WellFormed) :
    ∀ c ∈ t.method ++ (t.spaces ++ t.url), isBreak c = false := by
  intro c hc
  rcases List.mem_append.mp hc with hc | hc
  · exact (isUpper_visible (ht.method c hc)).2
  · rcases List.mem_append.mp hc with hc | hc
    · rw [ht.spaces c hc]
      rfl
    · exact (readUrlSymbols_visible (ht.url c hc)).2

theorem Target.WellFormed.url_no_space {t : Target} (ht : t.WellFormed) : space ∉ t.url :=
  fun h => (readUrlSymbols_visible (ht.url space h)).1 rfl

/-- The target ends in its line exactly when the URL parameters hold no line break. -/
theorem targetEnds_iff {l : RequestLine} {back : Bytes} (hl : l.WellFormed) :
    TargetEnds (l.bytes ++ back) ↔ ∀ c ∈ l.target.params, isBreak c = false := by
  have ht := hl.target
  obtain ⟨tail, htail⟩ : ∃ tail, l.tail = space :: tail := List.head?_eq_some_iff.mp hl.tail_head
  obtain ⟨b, run, hrun, hb⟩ := hl.lineBreak.cons
  have hdata : l.bytes ++ back = (l.target.method ++ (l.target.spaces ++ l.target.url)) ++
      (l.target.params ++ (l.tail ++ b :: (run ++ back))) := by
    simp [RequestLine.bytes, Target.bytes, hrun]
  have hfront : ∀ c ∈ l.target.method ++ (l.target.spaces ++ l.target.url),
      (!isBreak c) = true := fun c hc => by rw [ht.front_no_break c hc]; rfl
  unfold TargetEnds
  rw [hdata, List.takeWhile_append_of_pos hfront]
  constructor
  · intro hspace
    by_contra hno
    -- The line ends inside the parameters, where no space stands.
    obtain ⟨d, rest, hstop⟩ : ∃ d rest, l.target.params.dropWhile (!isBreak ·) = d :: rest := by
      cases hd : l.target.params.dropWhile (!isBreak ·) with
      | nil =>
        refine absurd (fun c hc => ?_) hno
        simpa using Scan.dropWhile_nil_iff.mp hd c hc
      | cons d rest => exact ⟨d, rest, rfl⟩
    rw [Scan.takeWhile_extend hstop, List.append_assoc, List.append_assoc, ht.dropMethod] at hspace
    refine dropSpaces_no_space ht.spaces (fun h => ?_) hspace
    rcases List.mem_append.mp h with h | h
    · exact ht.url_no_space h
    · exact ht.params_space space ((List.takeWhile_prefix _).subset h) rfl
  · intro hparams
    have hline : ∀ c ∈ l.target.params ++ l.tail, (!isBreak c) = true := by
      intro c hc
      rcases List.mem_append.mp hc with hc | hc
      · rw [hparams c hc]
        rfl
      · rw [hl.tail c hc]
        rfl
    have hwhole : (l.target.params ++ (l.tail ++ b :: (run ++ back))).takeWhile (!isBreak ·) =
        l.target.params ++ l.tail := by
      rw [← List.append_assoc]
      exact Scan.takeWhile_token hline (by simp [hb])
    rw [hwhole, List.append_assoc, List.append_assoc, ht.dropMethod,
      List.dropWhile_append_of_pos (fun c hc => by simpa using ht.spaces c hc)]
    -- The target begins with a byte that is no space, and the space behind it is left.
    have hne : l.target.url ++ l.target.params ≠ [] := by
      intro hnil
      rw [List.append_eq_nil_iff] at hnil
      exact ht.url_or_params hnil.1 hnil.2
    obtain ⟨c, more, hcons⟩ := List.exists_cons_of_ne_nil hne
    have hc : c ≠ space := by
      intro hcs
      have hmem : space ∈ l.target.url ++ l.target.params := by rw [hcons, hcs]; simp
      rcases List.mem_append.mp hmem with h | h
      · exact ht.url_no_space h
      · exact ht.params_space space h rfl
    rw [← List.append_assoc, hcons, List.cons_append, List.dropWhile_cons_of_neg (by simpa using hc),
      htail]
    simp

/-! ## Finished requests -/

theorem afterLines_params {data urlBuffer : Bytes} {l : RequestLine} (lines : List BrokenLine)
    (h : l.target.params = []) : (afterLines data urlBuffer l lines).urlParametersStart = 0 := by
  induction lines using List.reverseRecOn with
  | nil =>
    show (afterTarget data urlBuffer l.target).urlParametersStart = 0
    unfold afterTarget
    rw [if_pos h]
    rfl
  | append_singleton lines x ih =>
    rw [afterLines_append]
    exact ih

section
variable {h : Head} {back : Bytes} {r : HttpRequest}

theorem Closes.recorded (hc : Closes h back r) : Recorded h.requestLine.target r := by
  have hrec := afterHead_recorded r.data [] h
  exact ⟨hc.same.methodStart.trans hrec.methodStart, hc.same.methodLength.trans hrec.methodLength,
    fun hne => hc.same.urlParametersStart.trans (hrec.urlParametersStart hne),
    hc.same.urlParametersLength.trans hrec.urlParametersLength⟩

theorem Closes.urlBytes (hc : Closes h back r) : r.urlBytes = h.requestLine.target.url := by
  have hurl : (afterHead r.data [] h).urlBytes = h.requestLine.target.url :=
    afterHead_urlBytes hc.data
  rw [← hurl]
  unfold HttpRequest.urlBytes bytesAt
  rw [hc.same.urlStart, hc.same.urlLength, afterHead_data]

/-- The fields of the request line end with the target. -/
theorem Closes.requestLine_stop (hc : Closes h back r) :
    ∀ f ∈ [r.methodField, r.urlField, r.urlParametersField],
      f.stop ≤ h.requestLine.target.bytes.length := by
  have hrec := hc.recorded
  obtain ⟨hurlStart, hurlLength⟩ := afterHead_url r.data [] h
  have hlen : h.requestLine.target.bytes.length = h.requestLine.target.method.length +
      (h.requestLine.target.spaces.length +
        (h.requestLine.target.url.length + h.requestLine.target.params.length)) := by
    simp [Target.bytes]
  intro f hf
  rw [hlen]
  simp only [List.mem_cons, List.not_mem_nil, or_false] at hf
  rcases hf with rfl | rfl | rfl
  · show r.methodStart + r.methodLength ≤ _
    rw [hrec.methodStart, hrec.methodLength]
    omega
  · show r.urlStart + r.urlLength ≤ _
    rw [hc.same.urlStart, hc.same.urlLength, hurlStart, hurlLength]
    omega
  · show r.urlParametersStart + r.urlParametersLength ≤ _
    rw [hrec.urlParametersLength]
    by_cases hnil : h.requestLine.target.params = []
    · rw [hc.same.urlParametersStart, show (afterHead r.data [] h).urlParametersStart = 0 from
        afterLines_params h.lines hnil, hnil]
      simp
    · rw [hrec.urlParametersStart hnil, List.length_append, List.length_append]
      omega

/-- The bytes of every field but the URL parameters hold no line break. -/
theorem Closes.breaks_iff (hc : Closes h back r) :
    (∀ f ∈ r.ranges, ∀ c ∈ r.fieldBytes f, isBreak c = false) ↔
      ∀ c ∈ h.requestLine.target.params, isBreak c = false := by
  have hmethod : r.fieldBytes r.methodField = h.requestLine.target.method :=
    methodBytes_of_recorded hc.recorded rfl hc.data
  have hparams : r.fieldBytes r.urlParametersField = h.requestLine.target.params :=
    urlParametersBytes_of_recorded hc.recorded rfl hc.data
  have hurl : r.fieldBytes r.urlField = h.requestLine.target.url := hc.urlBytes
  have ht := hc.head.requestLine.target
  constructor
  · intro hall
    rw [← hparams]
    exact hall _ (by simp [HttpRequest.ranges])
  · intro hno f hf
    unfold HttpRequest.ranges headerFields at hf
    simp only [List.mem_append, List.mem_cons, List.not_mem_nil, or_false, List.mem_flatMap] at hf
    rcases hf with (rfl | rfl | rfl) | ⟨head, hhead, rfl | rfl⟩
    · rw [hmethod]
      exact fun c hcm => (isUpper_visible (ht.method c hcm)).2
    · rw [hurl]
      exact fun c hcu => (readUrlSymbols_visible (ht.url c hcu)).2
    · rw [hparams]
      exact hno
    · obtain ⟨l, hl, hkey, _⟩ := hc.header hhead
      rw [hkey]
      exact fun c hck => readHeaderKeySymbols_visible (hl.key c hck)
    · obtain ⟨l, hl, _, hvalue⟩ := hc.header hhead
      rw [hvalue]
      exact hl.value

theorem Closes.bound_iff (hc : Closes h back r) : LineBound r ↔ TargetEnds r.data := by
  have hdata : r.data = h.requestLine.bytes ++ (linesBytes h.lines ++ (h.last.bytes ++ back)) := by
    rw [hc.data, Head.bytes]
    simp
  have hl := hc.head.requestLine
  have hends : TargetEnds r.data ↔ ∀ f ∈ r.ranges, ∀ c ∈ r.fieldBytes f, isBreak c = false := by
    rw [hc.breaks_iff, hdata]
    exact targetEnds_iff hl
  rw [hends]
  refine ⟨fun hb => hb.breaks, fun hbreaks => ⟨?_, hbreaks⟩⟩
  have hparams := hc.breaks_iff.mp hbreaks
  obtain ⟨fields, hfields, hrows⟩ :=
    headLines_rows h.requestLine.bytes.length hc.head.lines hc.head.last hc.closing
  have hline : ∀ c ∈ h.requestLine.target.bytes ++ h.requestLine.tail, isBreak c = false := by
    intro c hcl
    rcases List.mem_append.mp hcl with hcl | hcl
    · have hsplit : h.requestLine.target.bytes = (h.requestLine.target.method ++
          (h.requestLine.target.spaces ++ h.requestLine.target.url)) ++
            h.requestLine.target.params := by
        simp [Target.bytes]
      rw [hsplit] at hcl
      rcases List.mem_append.mp hcl with hcl | hcl
      · exact hl.target.front_no_break c hcl
      · exact hparams c hcl
    · exact hl.tail c hcl
  have hlen : h.requestLine.bytes.length = 0 +
      (h.requestLine.target.bytes ++ h.requestLine.tail).length +
        h.requestLine.lineBreak.length := by
    simp [RequestLine.bytes, Nat.add_assoc]
  rw [hlen] at hfields
  refine ⟨{ start := 0, length := (h.requestLine.target.bytes ++ h.requestLine.tail).length },
    fields, ?_, fun f hf => (hc.requestLine_stop f hf).trans ?_, ?_⟩
  · have hsplit : r.data = (h.requestLine.target.bytes ++ h.requestLine.tail) ++
        (h.requestLine.lineBreak ++ (linesBytes h.lines ++ (h.last.bytes ++ back))) := by
      rw [hdata]
      simp [RequestLine.bytes]
    rw [hsplit]
    exact HeadLines.cons hline hl.lineBreak (headerLines_head hc.head.lines hc.head.last) hfields
  · show _ ≤ 0 + (h.requestLine.target.bytes ++ h.requestLine.tail).length
    rw [List.length_append]
    omega
  · rw [hc.same.headers, afterHead_headers]
    exact hrows

end

/-- However the bytes of a finished request arrived, its fields respect the lines exactly when the
target ends in front of the first line break. -/
theorem lineBound_iff {b : Bytes} {r : HttpRequest} (hr : Session b r)
    (hstate : r.state = .finishOk) : LineBound r ↔ TargetEnds r.data := by
  obtain ⟨h, back, hc⟩ := session_closes hr hstate
  exact hc.bound_iff

/-- `GET /?a H` and `E: f`. -/
def paramsRequest : Bytes :=
  [71, 69, 84, 32, 47, 63, 97, 32, 72, 13, 10, 69, 58, 32, 102, 13, 10, 13, 10]

theorem lineBound_iff_paramsRequest :
    ∃ r, parse {} paramsRequest = some (.finishOk, r) ∧
      (LineBound r ↔ TargetEnds r.data) := by
  have hparse : (parse {} paramsRequest).map (fun x => (x.1, x.2.state)) =
      some (.finishOk, .finishOk) := by decide +kernel
  obtain ⟨⟨result, r⟩, hr, hx⟩ := Option.map_eq_some_iff.mp hparse
  obtain ⟨rfl, hstate⟩ := Prod.mk.inj hx
  exact ⟨r, hr, lineBound_iff (session_of_parse hr) hstate⟩

/-- `GET /?a`, `B: c d` and `E: f`. -/
def swallowedHeader : Bytes :=
  [71, 69, 84, 32, 47, 63, 97, 13, 10, 66, 58, 32, 99, 32, 100, 13, 10, 69, 58, 32, 102, 13, 10,
   13, 10]

/-- The parameters go on into the line `B: c d`, and that header is not recorded. -/
theorem swallowedHeader_finishes :
    ∃ r, parse {} swallowedHeader = some (.finishOk, r) ∧ ¬ LineBound r ∧
      r.fieldBytes r.urlParametersField = [63, 97, 13, 10, 66, 58] ∧
      r.headers.map (fun head => r.fieldBytes head.key) = [[69]] := by
  have hparse : (parse {} swallowedHeader).map (fun x => (x.1,
      x.2.fieldBytes x.2.urlParametersField,
      x.2.headers.map (fun head => x.2.fieldBytes head.key))) =
      some (.finishOk, [63, 97, 13, 10, 66, 58], [[69]]) := by decide +kernel
  obtain ⟨⟨result, r⟩, hr, hx⟩ := Option.map_eq_some_iff.mp hparse
  obtain ⟨rfl, hx⟩ := Prod.mk.inj hx
  obtain ⟨hparams, hheaders⟩ := Prod.mk.inj hx
  dsimp only at hparams hheaders
  refine ⟨r, hr, fun h => ?_, hparams, hheaders⟩
  have hbreak := h.breaks r.urlParametersField (by simp [ranges]) cr (by rw [hparams]; decide)
  exact absurd hbreak (by decide)

end HttpRequest
end EpollHttp
