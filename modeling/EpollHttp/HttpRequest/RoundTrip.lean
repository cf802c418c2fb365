import EpollHttp.HttpRequest.Decoding
import EpollHttp.HttpRequest.Framing

/-
A request head that is written down is read back.

`Message` holds what a client wants to say, and `bytes` is how it writes it: one space between
the parts of the request line, a colon and a space in each header, and CRLF behind every line.
-/

namespace EpollHttp
namespace HttpRequest

open CString

structure Message where
  method : Bytes
  target : Bytes
  query : Option Bytes
  version : Bytes
  headers : List (Bytes × Bytes)

def crlf : Bytes := [cr, lf]

namespace Message

/-- The query with its question mark. -/
def params (m : Message) : Bytes :=
  match m.query with
  | none => []
  | some q => question :: q

def headerLine (p : Bytes × Bytes) : HeaderLine :=
  { key := p.1, sep := [colon, space], value := p.2 }

def bytes (m : Message) : Bytes :=
  m.method ++ space :: (m.target ++ (m.params ++ space :: (m.version ++ (crlf ++
    (m.headers.flatMap (fun p => p.1 ++ colon :: space :: (p.2 ++ crlf)) ++ crlf)))))

structure WellFormed (m : Message) : Prop where
  method_ne : m.method ≠ []
  method : ∀ c ∈ m.method, isUpper c = true
  target_ne : m.target ≠ []
  target : ∀ c ∈ m.target, readUrlSymbols c = true
  query : ∀ q ∈ m.query, ∀ c ∈ q, c ≠ space ∧ isBreak c = false
  version : ∀ c ∈ m.version, isBreak c = false
  headers_ne : m.headers ≠ []
  name_ne : ∀ p ∈ m.headers, p.1 ≠ []
  name : ∀ p ∈ m.headers, ∀ c ∈ p.1, readHeaderKeySymbols c = true
  name_length : ∀ p ∈ m.headers, ¬ p.1.map toLower <+: contentLengthName.map toLower
  value_ne : ∀ p ∈ m.headers, p.2 ≠ []
  value : ∀ p ∈ m.headers, ∀ c ∈ p.2, isBreak c = false
  value_head : ∀ p ∈ m.headers, ∀ c, p.2.head? = some c → c ≠ space ∧ c ≠ colon

/-! ## The message as a head -/

def requestLine (m : Message) : RequestLine where
  target := { method := m.method, spaces := [space], url := m.target, params := m.params }
  tail := space :: m.version
  lineBreak := crlf

/-- The head for the headers in front of the last one and the last one. -/
def head (m : Message) (front : List (Bytes × Bytes)) (last : Bytes × Bytes) : Head where
  requestLine := m.requestLine
  lines := front.map (fun p => (headerLine p, crlf))
  last := headerLine last

theorem crlf_isLineBreak : IsLineBreak crlf := ⟨by decide, by decide +kernel, by decide⟩

theorem bytes_eq {m : Message} {front : List (Bytes × Bytes)} {last : Bytes × Bytes}
    (h : m.headers = front ++ [last]) :
    m.bytes = (m.head front last).bytes ++ (crlf ++ crlf) := by
  have hlines : linesBytes (m.head front last).lines =
      front.flatMap (fun p => p.1 ++ colon :: space :: (p.2 ++ crlf)) := by
    unfold linesBytes head
    rw [List.flatMap_map]
    simp [headerLine, HeaderLine.bytes]
  unfold bytes Head.bytes
  rw [hlines, h]
  simp [head, requestLine, RequestLine.bytes, Target.bytes, headerLine, HeaderLine.bytes]

theorem WellFormed.requestLine {m : Message} (h : m.WellFormed) : m.requestLine.WellFormed where
  target :=
    { method := h.method
      spaces_ne := by simp [Message.requestLine]
      spaces := by simp [Message.requestLine]
      url := h.target
      params := by
        unfold Message.requestLine params
        cases m.query with
        | none => exact Or.inl rfl
        | some q => exact Or.inr ⟨q, rfl⟩
      params_space := by
        intro c hc
        have hq := h.query
        unfold Message.requestLine params at hc
        cases hquery : m.query with
        | none =>
          rw [hquery] at hc
          cases hc
        | some q =>
          rw [hquery] at hc hq
          rcases List.mem_cons.mp hc with rfl | hmem
          · decide
          · exact (hq q rfl c hmem).1
      url_or_params := fun hnil => absurd hnil h.target_ne }
  tail_head := rfl
  tail := by
    intro c hc
    rcases List.mem_cons.mp hc with rfl | hmem
    · decide
    · exact h.version c hmem
  lineBreak := crlf_isLineBreak

/-- The name is not taken for Content-Length. -/
theorem WellFormed.plain_name {m : Message} (h : m.WellFormed) {p : Bytes × Bytes}
    (hp : p ∈ m.headers) : namesContentLength p.1 = false := by
  have hzero : (0 : UInt8) ∉ p.1 := fun hmem => absurd (h.name p hp 0 hmem) (by decide)
  have hnot : ¬ namesContentLength p.1 = true := fun hname =>
    h.name_length p hp ((strncaseEq_iff hzero).mp hname)
  simpa using hnot

theorem WellFormed.headerLine {m : Message} (h : m.WellFormed) {p : Bytes × Bytes}
    (hp : p ∈ m.headers) : (headerLine p).WellFormed where
  key := h.name p hp
  sep_head := rfl
  sep := by
    intro c hc
    have hsep : ∀ c ∈ ([colon, space] : Bytes), isHeaderSpace c = true := by
      decide +kernel
    exact hsep c hc
  value_ne := h.value_ne p hp
  value_head := by
    intro c hc
    obtain ⟨hspace, hcolon⟩ := h.value_head p hp c hc
    simp [isHeaderSpace, hspace, hcolon]
  value := h.value p hp
  short := fun hname => absurd (h.plain_name hp) (by
    have hkey : namesContentLength p.1 = true := hname
    simp [hkey])

theorem WellFormed.head {m : Message} (h : m.WellFormed) {front : List (Bytes × Bytes)}
    {last : Bytes × Bytes} (hheaders : m.headers = front ++ [last]) :
    (m.head front last).WellFormed where
  requestLine := h.requestLine
  lines := by
    intro x hx
    obtain ⟨p, hp, rfl⟩ := List.mem_map.mp hx
    exact ⟨h.headerLine (by rw [hheaders]; simp [hp]), crlf_isLineBreak⟩
  last := h.headerLine (by rw [hheaders]; simp)

theorem headerLines_eq {m : Message} {front : List (Bytes × Bytes)} {last : Bytes × Bytes}
    (h : m.headers = front ++ [last]) :
    (m.head front last).headerLines = m.headers.map Message.headerLine := by
  unfold Head.headerLines
  rw [h, List.map_append]
  simp [Message.head]

/-- Without a Content-Length there is no body. -/
theorem WellFormed.contentLength {m : Message} (h : m.WellFormed) {front : List (Bytes × Bytes)}
    {last : Bytes × Bytes} (hheaders : m.headers = front ++ [last]) :
    (m.head front last).contentLength = 0 := by
  have hlines : ∀ l ∈ (m.head front last).headerLines, namesContentLength l.key = false := by
    intro l hl
    rw [headerLines_eq hheaders] at hl
    obtain ⟨p, hp, rfl⟩ := List.mem_map.mp hl
    exact h.plain_name hp
  unfold Head.contentLength
  generalize (m.head front last).headerLines = lines at hlines
  induction lines with
  | nil => rfl
  | cons l lines ih =>
    have hkeep : Head.declaredLength 0 l = 0 := by
      unfold Head.declaredLength
      rw [hlines l List.mem_cons_self]
      rfl
    rw [List.foldl_cons, hkeep]
    exact ih (fun x hx => hlines x (List.mem_cons_of_mem _ hx))

/-- The line breaks behind the last header close the head, whatever follows them. -/
theorem WellFormed.closedHead {m : Message} (h : m.WellFormed) {front : List (Bytes × Bytes)}
    {last : Bytes × Bytes} (hheaders : m.headers = front ++ [last]) (trailing : Bytes) :
    ∃ closing body, ClosedHead (m.bytes ++ trailing) (m.head front last) closing body := by
  have hdata : m.bytes ++ trailing = (m.head front last).bytes ++ (crlf ++ crlf ++ trailing) := by
    rw [bytes_eq hheaders, List.append_assoc]
  have hbreaks : ∀ c ∈ crlf ++ crlf, isBreak c = true := by
    decide +kernel
  have htwo : 1 < lineBreakCounter ((crlf ++ crlf ++ trailing).takeWhile isBreak) := by
    have hcrlf : lineBreakCounter (crlf ++ crlf) = 2 := by
      decide
    rw [List.takeWhile_append_of_pos hbreaks]
    unfold lineBreakCounter at hcrlf ⊢
    rw [List.count_append]
    omega
  exact ⟨_, _, closedHead_of_run hdata (h.head hheaders) htwo⟩

end Message

/-! ## What the parser records -/

def methodBytes (r : HttpRequest) : Bytes := r.bytesAt r.methodStart r.methodLength

def urlParametersBytes (r : HttpRequest) : Bytes :=
  r.bytesAt r.urlParametersStart r.urlParametersLength

section
variable (data urlBuffer : Bytes)

/-- Where the parts of the request line are recorded. -/
structure Recorded (t : Target) (r : HttpRequest) : Prop where
  methodStart : r.methodStart = 0
  methodLength : r.methodLength = t.method.length
  urlParametersStart : t.params ≠ [] →
    r.urlParametersStart = (t.method ++ t.spaces ++ t.url).length
  urlParametersLength : r.urlParametersLength = t.params.length

theorem afterTarget_recorded (t : Target) : Recorded t (afterTarget data urlBuffer t) := by
  unfold afterTarget
  split
  · rename_i hnil
    exact ⟨rfl, rfl, fun hne => absurd hnil hne, by rw [hnil]; rfl⟩
  · refine ⟨rfl, rfl, fun _ => ?_, rfl⟩
    show (afterSpaces data urlBuffer t).cur + t.url.length = _
    rw [afterSpaces_cur, List.length_append, List.length_append]

theorem afterHead_recorded (h : Head) :
    Recorded h.requestLine.target (afterHead data urlBuffer h) := by
  have hlines : ∀ lines : List BrokenLine,
      Recorded h.requestLine.target (afterLines data urlBuffer h.requestLine lines) := by
    intro lines
    induction lines using List.reverseRecOn with
    | nil =>
      have htarget := afterTarget_recorded data urlBuffer h.requestLine.target
      exact ⟨htarget.methodStart, htarget.methodLength, htarget.urlParametersStart,
        htarget.urlParametersLength⟩
    | append_singleton lines x ih =>
      rw [afterLines_append]
      exact ⟨ih.methodStart, ih.methodLength, ih.urlParametersStart, ih.urlParametersLength⟩
  have hall := hlines h.lines
  exact ⟨hall.methodStart, hall.methodLength, hall.urlParametersStart, hall.urlParametersLength⟩

end

section
variable {data back : Bytes} {h : Head} {r : HttpRequest}

theorem methodBytes_of_recorded (hr : Recorded h.requestLine.target r) (hdata : r.data = data)
    (hsplit : data = h.bytes ++ back) : r.methodBytes = h.requestLine.target.method := by
  unfold methodBytes bytesAt
  rw [hr.methodStart, hr.methodLength, hdata, hsplit]
  simp [Head.bytes, RequestLine.bytes, Target.bytes]

theorem urlParametersBytes_of_recorded (hr : Recorded h.requestLine.target r)
    (hdata : r.data = data) (hsplit : data = h.bytes ++ back) :
    r.urlParametersBytes = h.requestLine.target.params := by
  unfold urlParametersBytes bytesAt
  rw [hr.urlParametersLength]
  by_cases hnil : h.requestLine.target.params = []
  · rw [hnil]
    rfl
  · have hfront : data = (h.requestLine.target.method ++ h.requestLine.target.spaces ++
        h.requestLine.target.url) ++ (h.requestLine.target.params ++ (h.requestLine.tail ++
          h.requestLine.lineBreak ++ (linesBytes h.lines ++ h.last.bytes) ++ back)) := by
      rw [hsplit]
      simp [Head.bytes, RequestLine.bytes, Target.bytes]
    rw [hr.urlParametersStart hnil, hdata, hfront, List.drop_left, List.take_left]

end

section
variable {data closing body : Bytes} {h : Head}

/-- The answer to a closed head without a body, and the request that it leaves. -/
theorem ClosedHead.parse (hh : ClosedHead data h closing body) (hzero : h.contentLength = 0) :
    ∃ urlBuffer state, HttpRequest.parse {} data =
      some (if urlAccepted h.requestLine.target.url then .finishOk else .finishInvalid,
        { afterHead data [] h with urlBuffer := urlBuffer, state := state }) := by
  have hend := hh.finishes hzero
  have hurl : ({ afterHead data [] h with state := .finishOk } : HttpRequest).urlBytes =
      h.requestLine.target.url := afterHead_urlBytes hh.data_eq
  have hrange : (afterHead data [] h).urlStart + (afterHead data [] h).urlLength ≤
      (afterHead data [] h).size := atContent_inRange hh.data_eq 0
  obtain ⟨urlBuffer, state, hleft, _⟩ :=
    postParse_eq { afterHead data [] h with state := .finishOk }
  have hresult := postParse_result
    (r := { afterHead data [] h with state := .finishOk }) rfl hrange
  rw [hurl] at hresult
  refine ⟨urlBuffer, state, ?_⟩
  have hparses : Parses {} data
      (if urlAccepted h.requestLine.target.url then .finishOk else .finishInvalid)
      { afterHead data [] h with urlBuffer := urlBuffer, state := state } :=
    parses_iff.mpr ⟨_, (.finishOk, _), hh.visits, hend, Prod.ext hresult hleft⟩
  have hall : HttpRequest.parse {} (data.take data.length) = some
      (if urlAccepted h.requestLine.target.url then .finishOk else .finishInvalid,
        { afterHead data [] h with urlBuffer := urlBuffer, state := state }) ↔
      Parses {} (data.take data.length) _ _ :=
    (sessionInv_start data {}).parse_eq_some_iff (Nat.zero_le _)
  rw [List.take_length] at hall
  exact hall.mpr hparses

end

/-- A message that is written down is read back, and the answer is about its target alone. -/
theorem parse_message (m : Message) (h : m.WellFormed) (trailing : Bytes) :
    ∃ r, parse {} (m.bytes ++ trailing) =
        some (if urlAccepted m.target then .finishOk else .finishInvalid, r) ∧
      r.methodBytes = m.method ∧ r.urlBytes = m.target ∧ r.urlParametersBytes = m.params ∧
      r.headerBytes = m.headers := by
  obtain hnil | ⟨front, last, hheaders⟩ := List.eq_nil_or_concat' m.headers
  · exact absurd hnil h.headers_ne
  · obtain ⟨closing, body, hclosed⟩ := h.closedHead hheaders trailing
    obtain ⟨urlBuffer, state, hparse⟩ := hclosed.parse (h.contentLength hheaders)
    have hrecorded := afterHead_recorded (m.bytes ++ trailing) [] (m.head front last)
    have hdata : (afterHead (m.bytes ++ trailing) [] (m.head front last)).data =
        m.bytes ++ trailing := afterHead_data _ _ _
    refine ⟨_, hparse, ?_, ?_, ?_, ?_⟩
    · exact methodBytes_of_recorded hrecorded hdata hclosed.data_eq
    · exact afterHead_urlBytes hclosed.data_eq
    · exact urlParametersBytes_of_recorded hrecorded hdata hclosed.data_eq
    · have hbytes : (afterHead (m.bytes ++ trailing) [] (m.head front last)).headerBytes =
          (m.head front last).headerLines.map HeaderLine.pair :=
        headerBytes_afterHead hclosed.data_eq
      rw [Message.headerLines_eq hheaders, List.map_map] at hbytes
      have hpairs : m.headers.map (HeaderLine.pair ∘ Message.headerLine) = m.headers :=
        List.map_id m.headers
      rw [hpairs] at hbytes
      exact hbytes

/-- The answer in the words of the independent decoder: every escape can be read, and what is
decoded, up to a byte 0, is made of the symbols of a URL and has no two dots in a row. -/
theorem message_verdict (m : Message) (h : m.WellFormed) (trailing : Bytes) :
    ∃ result r, parse {} (m.bytes ++ trailing) = some (result, r) ∧
      (result = .finishOk ∨ result = .finishInvalid) ∧
      (result = .finishOk ↔
        EscapesRead m.target ∧ UrlString (cString (decoded m.target))) := by
  obtain hnil | ⟨front, last, hheaders⟩ := List.eq_nil_or_concat' m.headers
  · exact absurd hnil h.headers_ne
  · obtain ⟨closing, body, hclosed⟩ := h.closedHead hheaders trailing
    obtain ⟨urlBuffer, state, hparse⟩ := hclosed.parse (h.contentLength hheaders)
    have hnul : 0 ∉ m.target := fun h0 => absurd (h.target 0 h0) (by decide)
    have hiff := urlAccepted_iff hnul
    rw [and_iff_right h.target_ne] at hiff
    refine ⟨_, _, hparse, ?_, ?_⟩
    · split
      · exact Or.inl rfl
      · exact Or.inr rfl
    · rw [← hiff]
      refine ⟨fun heq => ?_, fun hacc => if_pos hacc⟩
      by_contra hnot
      have hinvalid : ParseResult.finishInvalid = ParseResult.finishOk :=
        (if_neg hnot).symm.trans heq
      cases hinvalid

/-- `GET /a%20b?x=1 HTTP` with the headers `Host: a:8` and `A-b: c d` -/
def sampleMessage : Message where
  method := [71, 69, 84]
  target := [47, 97, 37, 50, 48, 98]
  query := some [120, 61, 49]
  version := [72, 84, 84, 80]
  headers := [([72, 111, 115, 116], [97, 58, 56]), ([65, 45, 98], [99, 32, 100])]

theorem parse_message_sample :
    ∃ r, parse {} (sampleMessage.bytes ++ [10, 0]) = some (.finishOk, r) ∧
      r.methodBytes = [71, 69, 84] ∧ r.urlBytes = [47, 97, 37, 50, 48, 98] ∧
      r.urlParametersBytes = [63, 120, 61, 49] ∧
      r.headerBytes = [([72, 111, 115, 116], [97, 58, 56]), ([65, 45, 98], [99, 32, 100])] := by
  have haccepted : urlAccepted sampleMessage.target = true := by decide
  have hparse := parse_message sampleMessage
    { method_ne := by decide
      method := by decide +kernel
      target_ne := by decide
      target := by decide +kernel
      query := by decide +kernel
      version := by decide +kernel
      headers_ne := by decide
      name_ne := by decide
      name := by decide +kernel
      name_length := by decide
      value_ne := by decide
      value := by decide +kernel
      value_head := by decide +kernel } [10, 0]
  rw [haccepted] at hparse
  exact hparse

end HttpRequest
end EpollHttp
