import EpollHttp.HttpRequest.Verdict

/-
Heads that are closed by their line-break run, and the body behind them.

The parser reads the content length and the ranges off the head alone, and a byte string
closes its head in one way only.
-/

namespace EpollHttp
namespace HttpRequest

open CString

/-! ## The run that closes the head -/

@[simp] theorem tookHeaderLine_contentLength (r : HttpRequest) (l : HeaderLine) :
    (r.tookHeaderLine l).contentLength = Head.declaredLength r.contentLength l := rfl

section
variable (data urlBuffer : Bytes)

theorem afterTarget_contentLength (t : Target) :
    (afterTarget data urlBuffer t).contentLength = 0 := by
  unfold afterTarget
  split <;> rfl

theorem afterLines_contentLength (l : RequestLine) (lines : List BrokenLine) :
    (afterLines data urlBuffer l lines).contentLength =
      (lines.map Prod.fst).foldl Head.declaredLength 0 := by
  induction lines using List.reverseRecOn with
  | nil => exact afterTarget_contentLength data urlBuffer l.target
  | append_singleton lines x ih =>
    rw [afterLines_append, List.map_append, List.foldl_append]
    show Head.declaredLength (afterLines data urlBuffer l lines).contentLength x.1 = _
    rw [ih]
    rfl

/-- The parser has the content length of the head. -/
theorem afterHead_contentLength (h : Head) :
    (afterHead data urlBuffer h).contentLength = h.contentLength := by
  unfold Head.contentLength Head.headerLines
  rw [List.foldl_append]
  show Head.declaredLength (afterLines data urlBuffer h.requestLine h.lines).contentLength
    h.last = _
  rw [afterLines_contentLength]
  rfl

theorem afterTarget_url (t : Target) :
    (afterTarget data urlBuffer t).urlStart = t.method.length + t.spaces.length ∧
      (afterTarget data urlBuffer t).urlLength = t.url.length := by
  unfold afterTarget
  split
  · exact ⟨afterSpaces_cur data urlBuffer t, rfl⟩
  · exact ⟨afterSpaces_cur data urlBuffer t, rfl⟩

theorem afterHead_url (h : Head) :
    (afterHead data urlBuffer h).urlStart =
        h.requestLine.target.method.length + h.requestLine.target.spaces.length ∧
      (afterHead data urlBuffer h).urlLength = h.requestLine.target.url.length := by
  have hlines : ∀ lines : List BrokenLine,
      (afterLines data urlBuffer h.requestLine lines).urlStart =
          h.requestLine.target.method.length + h.requestLine.target.spaces.length ∧
        (afterLines data urlBuffer h.requestLine lines).urlLength =
          h.requestLine.target.url.length := by
    intro lines
    induction lines using List.reverseRecOn with
    | nil => exact afterTarget_url data urlBuffer h.requestLine.target
    | append_singleton lines x ih =>
      rw [afterLines_append]
      exact ih
  exact hlines h.lines

end

theorem afterHead_urlBytes {data urlBuffer back : Bytes} {h : Head}
    (hdata : data = h.bytes ++ back) :
    (afterHead data urlBuffer h).urlBytes = h.requestLine.target.url := by
  obtain ⟨hstart, hlength⟩ := afterHead_url data urlBuffer h
  have hsplit : data = (h.requestLine.target.method ++ h.requestLine.target.spaces) ++
      (h.requestLine.target.url ++ (h.requestLine.target.params ++ (h.requestLine.tail ++
        h.requestLine.lineBreak) ++ (linesBytes h.lines ++ h.last.bytes) ++ back)) := by
    rw [hdata]
    simp [Head.bytes, RequestLine.bytes, Target.bytes]
  unfold urlBytes bytesAt
  rw [hstart, hlength, afterHead_data, hsplit, ← List.length_append, List.drop_left,
    List.take_left]

/-- The state in front of the body, as far as the closing run was measured. -/
def atBody (data : Bytes) (h : Head) (closing : Bytes) : HttpRequest :=
  (afterHead data [] h).tookClosing closing

theorem IsClosing.cons {run : Bytes} (h : IsClosing run) :
    ∃ b run', run = b :: run' ∧ isBreak b = true := by
  cases run with
  | nil => exact absurd h.two (by decide)
  | cons b run' => exact ⟨b, run', rfl, h.breaks b (by simp)⟩

section
variable {data closing body : Bytes} {h : Head}

theorem ClosedHead.takeWhile (hh : ClosedHead data h closing body) :
    (closing ++ body).takeWhile isBreak = closing := by
  cases body with
  | nil => rw [List.append_nil, Scan.takeWhile_all hh.closing.breaks]
  | cons c body => exact Scan.takeWhile_token hh.closing.breaks (hh.body c rfl)

theorem ClosedHead.visits (hh : ClosedHead data h closing body) :
    Visits (startState data []) (afterHead data [] h) := by
  obtain ⟨b, run, hcons, hb⟩ := hh.closing.cons
  exact visits_afterHead (show data = h.bytes ++ b :: (run ++ body) by
    rw [hh.data_eq, hcons, List.cons_append]) hh.head hb

theorem ClosedHead.next_atBody (hh : ClosedHead data h closing body)
    (hne : h.contentLength ≠ 0) : Next (afterHead data [] h) (atBody data h closing) :=
  next_closing rfl (rest_afterHead hh.data_eq) hh.closing hh.body
    (by rw [afterHead_contentLength]; exact hne)

theorem ClosedHead.visits_atBody (hh : ClosedHead data h closing body)
    (hne : h.contentLength ≠ 0) : Visits (startState data []) (atBody data h closing) :=
  hh.visits.tail (hh.next_atBody hne)

/-- Without a body the closing run finishes the request. -/
theorem ClosedHead.finishes (hh : ClosedHead data h closing body) (hzero : h.contentLength = 0) :
    (afterHead data [] h).iteration =
      ({ afterHead data [] h with state := .finishOk }, some .finishOk) := by
  unfold iteration iterHeaderLineBreak
  rw [afterHead_state]
  dsimp only
  rw [readHeaderLineBreak_closing (rest_afterHead hh.data_eq) hh.closing hh.body]
  dsimp only
  rw [if_pos (by rw [afterHead_contentLength]; exact hzero)]

/-- From in front of the closing run the parser goes on into the body at most. -/
theorem ClosedHead.last_line (hh : ClosedHead data h closing body) {s : HttpRequest}
    (hv : Visits (afterHead data [] h) s) (hs : s.state = .headerLineBreak) :
    s = afterHead data [] h := by
  by_cases hzero : h.contentLength = 0
  · exact visits_returned (congrArg Prod.snd (hh.finishes hzero)) hv
  · rcases Relation.ReflTransGen.cases_head hv with heq | ⟨c, hc, hcv⟩
    · exact heq.symm
    · rw [next_unique hc (hh.next_atBody hzero)] at hcv
      rcases Relation.ReflTransGen.cases_head hcv with heq | ⟨d, hd, _⟩
      · rw [← heq] at hs
        exact absurd (show State.content = State.headerLineBreak from hs) (by decide)
      · exact absurd (congrArg Prod.snd hd) (iterContent_returns (atBody data h closing))

/-- A byte string closes its head in one way. -/
theorem closedHead_unique {closing' body' : Bytes} {h' : Head}
    (hh : ClosedHead data h closing body) (hh' : ClosedHead data h' closing' body') :
    h.bytes.length = h'.bytes.length ∧ closing = closing' ∧ body = body' ∧
      h.contentLength = h'.contentLength ∧
      h.requestLine.target.url = h'.requestLine.target.url := by
  have hstates : afterHead data [] h = afterHead data [] h' := by
    rcases visits_linear hh.visits hh'.visits with hv | hv
    · exact (hh.last_line hv rfl).symm
    · exact hh'.last_line hv rfl
  have hlen : h.bytes.length = h'.bytes.length := by
    have hcur := congrArg HttpRequest.cur hstates
    simpa using hcur
  have hback : closing ++ body = closing' ++ body' := by
    have hrest := congrArg HttpRequest.rest hstates
    rwa [rest_afterHead hh.data_eq, rest_afterHead hh'.data_eq] at hrest
  have hclosing : closing = closing' := by rw [← hh.takeWhile, ← hh'.takeWhile, hback]
  refine ⟨hlen, hclosing, ?_, ?_, ?_⟩
  · rw [hclosing] at hback
    exact List.append_cancel_left hback
  · rw [← afterHead_contentLength data [] h, hstates, afterHead_contentLength]
  · rw [← afterHead_urlBytes hh.data_eq, hstates, afterHead_urlBytes hh'.data_eq]

/-- A prefix that shows enough of the closing run closes the same head. -/
theorem ClosedHead.take (hh : ClosedHead data h closing body) {n : Nat}
    (htwo : 1 < lineBreakCounter (closing.take (n - h.bytes.length))) :
    ClosedHead (data.take n) h (closing.take (n - h.bytes.length))
      (body.take (n - h.bytes.length - closing.length)) := by
  have hlt : h.bytes.length < n := by
    by_contra hle
    rw [Nat.sub_eq_zero_of_le (Nat.le_of_not_lt hle), List.take_zero] at htwo
    exact absurd htwo (by decide)
  refine ⟨?_, hh.head, ⟨fun c hc => hh.closing.breaks c (List.mem_of_mem_take hc), htwo⟩, ?_⟩
  · rw [hh.data_eq, List.take_append, List.take_append, List.take_of_length_le (by omega)]
  · intro c hc
    refine hh.body c ?_
    cases body with
    | nil => simp at hc
    | cons d body =>
      cases hk : n - h.bytes.length - closing.length with
      | zero => rw [hk] at hc; simp at hc
      | succ k => rw [hk] at hc; simpa using hc

end

/-- A call that finds the body does what the parser does from there. -/
theorem atBody_of_content {data : Bytes} {last : HttpRequest}
    (hv : Visits (startState data []) last) (hstate : last.state = .content) :
    ∃ h closing body, ClosedHead data h closing body ∧ h.contentLength ≠ 0 ∧
      last = atBody data h closing := by
  cases visits_shape hv
  case content h closing body hh hne =>
    exact ⟨h, closing, body, hh, by rw [← afterHead_contentLength data [] h]; exact hne, rfl⟩
  all_goals simp [startState, tookMethod, tookUrl, afterSpaces, tookSpaces, tookKey, tookSep]
    at hstate

/-- A closed head with a body is what the parser stops in. -/
theorem ClosedHead.stops {data closing body : Bytes} {h : Head} {s : HttpRequest}
    {result : ParseResult} (hh : ClosedHead data h closing body) (hne : h.contentLength ≠ 0)
    (hv : Visits (startState data []) s) (hreturns : s.iteration.2 = some result) :
    s.state = .content := by
  rcases visits_linear (hh.visits_atBody hne) hv with hpath | hpath
  · rcases Relation.ReflTransGen.cases_head hpath with heq | ⟨d, hd, _⟩
    · rw [← heq]
      rfl
    · exact absurd (congrArg Prod.snd hd) (iterContent_returns (atBody data h closing))
  · rw [← visits_returned hreturns hpath]
    rfl

/-! ## More data -/

/-- On a longer buffer the closing run goes on only when nothing stood behind it. -/
theorem ClosedHead.grow {data closing body : Bytes} {h : Head}
    (hh : ClosedHead data h closing body) (e : Bytes) :
    ∃ more rest, ClosedHead (data ++ e) h (closing ++ more) rest ∧ (more ≠ [] → body = []) := by
  cases body with
  | nil =>
    refine ⟨e.takeWhile isBreak, e.dropWhile isBreak, ⟨?_, hh.head, ⟨?_, ?_⟩, ?_⟩, fun _ => rfl⟩
    · rw [hh.data_eq]
      simp
    · intro c hc
      rcases List.mem_append.mp hc with hc | hc
      · exact hh.closing.breaks c hc
      · exact Scan.token_class hc
    · have htwo := hh.closing.two
      unfold lineBreakCounter at htwo ⊢
      rw [List.count_append]
      omega
    · intro c hc
      cases hrest : e.dropWhile isBreak with
      | nil => rw [hrest] at hc; simp at hc
      | cons d rest =>
        rw [hrest] at hc
        rw [← Option.some.inj hc]
        exact Scan.stop_not hrest
  | cons d body =>
    refine ⟨[], d :: body ++ e, ⟨?_, hh.head, ?_, ?_⟩, fun h => absurd rfl h⟩
    · rw [hh.data_eq]
      simp
    · rw [List.append_nil]
      exact hh.closing
    · intro c hc
      exact hh.body c (by simpa using hc)

/-! ## All the bytes at once -/

/-- The body as it was found: the head's ranges with the position of the body. -/
def atContent (data : Bytes) (h : Head) (contentStart : Nat) : HttpRequest :=
  { afterHead data [] h with
    cur := contentStart, contentStart := contentStart, state := .finishOk }

theorem atBody_cur (data : Bytes) (h : Head) (closing : Bytes) :
    (atBody data h closing).cur = h.bytes.length + closing.length := by
  unfold atBody tookClosing
  rw [afterHead_cur]

theorem atBody_contentLength (data : Bytes) (h : Head) (closing : Bytes) :
    (atBody data h closing).contentLength = h.contentLength :=
  afterHead_contentLength data [] h

theorem atBody_urlBytes {data closing back : Bytes} {h : Head} (hdata : data = h.bytes ++ back) :
    (atBody data h closing).urlBytes = h.requestLine.target.url :=
  afterHead_urlBytes hdata

/-- What a fresh request answers when all the bytes are there. -/
theorem parse_closedHead {b closing body : Bytes} {h : Head} (hh : ClosedHead b h closing body)
    (hne : h.contentLength ≠ 0) {y : ParseResult × HttpRequest} (hy : parse {} b = some y) :
    (h.contentLength ≤ (body.length : Int) →
      y = finish (.finishOk, atContent b h (h.bytes.length + closing.length))) ∧
    (¬ h.contentLength ≤ (body.length : Int) → y = (.needMoreData, atBody b h closing)) := by
  obtain ⟨w, ⟨s, hs, hw⟩, hfin⟩ := parse_outcome hy
  have hv := hh.visits_atBody hne
  have hroom : (atBody b h closing).contentLength ≤
      ((atBody b h closing).size : Int) - (atBody b h closing).cur ↔
        h.contentLength ≤ (body.length : Int) := by
    have hsize : (atBody b h closing).size = h.bytes.length + (closing.length + body.length) := by
      unfold size
      rw [show (atBody b h closing).data = b from afterHead_data b [] h, hh.data_eq]
      simp
    rw [atBody_contentLength, atBody_cur, hsize]
    omega
  have hiter : (atBody b h closing).iteration = (atBody b h closing).iterContent := rfl
  unfold iterContent at hiter
  constructor
  · intro hle
    rw [if_pos (hroom.mpr hle)] at hiter
    have hx := (outcome_unique (x := (.finishOk, _)) hv hiter hs hw).2
    rw [← hfin, ← hx]
    unfold atContent
    rw [← atBody_cur b h closing]
    rfl
  · intro hlt
    rw [if_neg (fun h => hlt (hroom.mp h))] at hiter
    have hx := (outcome_unique (x := (.needMoreData, _)) hv hiter hs hw).2
    rw [← hfin, ← hx]
    rfl

theorem atContent_inRange {b : Bytes} {h : Head} {back : Bytes} (hdata : b = h.bytes ++ back)
    (contentStart : Nat) :
    (atContent b h contentStart).urlStart + (atContent b h contentStart).urlLength ≤
      (atContent b h contentStart).size := by
  show (afterHead b [] h).urlStart + (afterHead b [] h).urlLength ≤ (afterHead b [] h).data.length
  obtain ⟨hstart, hlength⟩ := afterHead_url b [] h
  rw [hstart, hlength, afterHead_data, hdata]
  simp only [Head.bytes, RequestLine.bytes, Target.bytes, List.length_append]
  omega

theorem atContent_urlBytes {b : Bytes} {h : Head} {back : Bytes} (hdata : b = h.bytes ++ back)
    (contentStart : Nat) : (atContent b h contentStart).urlBytes = h.requestLine.target.url :=
  afterHead_urlBytes hdata

/-- The ranges of a head do not depend on the buffer it stands in. -/
theorem afterHead_of_data (data data' : Bytes) (h : Head) :
    afterHead data' [] h = { afterHead data [] h with data := data' } := by
  have htarget : ∀ t : Target,
      afterTarget data' [] t = { afterTarget data [] t with data := data' } := by
    intro t
    unfold afterTarget
    split <;> rfl
  have hlines : ∀ lines : List BrokenLine, afterLines data' [] h.requestLine lines =
      { afterLines data [] h.requestLine lines with data := data' } := by
    intro lines
    induction lines using List.reverseRecOn with
    | nil =>
      show (afterTarget data' [] h.requestLine.target).tookLine _ = _
      rw [htarget]
      rfl
    | append_singleton lines x ih =>
      rw [afterLines_append, afterLines_append, ih]
      rfl
  show (afterLines data' [] h.requestLine h.lines).tookHeaderLine h.last = _
  rw [hlines]
  rfl

end HttpRequest
end EpollHttp
