import EpollHttp.HttpRequest.Arrival
import EpollHttp.HttpRequest.Framing
import EpollHttp.HttpRequest.Layout

/-
Finished requests.

However the bytes arrive, a request that is finished stands at the head that its data begins
with: the calls in front of the last one waited, and the ranges are those of that head.
-/

namespace EpollHttp
namespace HttpRequest

open CString

/-! ## The ranges of a head, whatever buffer it stands in -/

theorem SameHead.tookHeaderLine {r s : HttpRequest} (h : SameHead r s) (hcur : r.cur = s.cur)
    (l : HeaderLine) : SameHead (r.tookHeaderLine l) (s.tookHeaderLine l) where
  methodStart := h.methodStart
  methodLength := h.methodLength
  urlStart := h.urlStart
  urlLength := h.urlLength
  urlParametersStart := h.urlParametersStart
  urlParametersLength := h.urlParametersLength
  headers := by
    show r.headers ++ [_] = s.headers ++ [_]
    rw [h.headers]
    simp [HttpRequest.tookKey, HttpRequest.tookSep, hcur]
  contentLength := by
    rw [tookHeaderLine_contentLength, tookHeaderLine_contentLength, h.contentLength]

theorem afterTarget_sameHead (data data' urlBuffer urlBuffer' : Bytes) (t : Target) :
    SameHead (afterTarget data urlBuffer t) (afterTarget data' urlBuffer' t) := by
  unfold afterTarget
  split <;> exact ⟨rfl, rfl, rfl, rfl, rfl, rfl, rfl, rfl⟩

theorem afterLines_sameHead (data data' urlBuffer urlBuffer' : Bytes) (l : RequestLine)
    (lines : List BrokenLine) :
    SameHead (afterLines data urlBuffer l lines) (afterLines data' urlBuffer' l lines) := by
  induction lines using List.reverseRecOn with
  | nil =>
    have h := afterTarget_sameHead data data' urlBuffer urlBuffer' l.target
    exact ⟨h.methodStart, h.methodLength, h.urlStart, h.urlLength, h.urlParametersStart,
      h.urlParametersLength, h.headers, h.contentLength⟩
  | append_singleton lines x ih =>
    rw [afterLines_append, afterLines_append]
    have h := ih.tookHeaderLine (by rw [afterLines_cur, afterLines_cur]) x.1
    exact ⟨h.methodStart, h.methodLength, h.urlStart, h.urlLength, h.urlParametersStart,
      h.urlParametersLength, h.headers, h.contentLength⟩

theorem afterHead_sameHead (data data' urlBuffer urlBuffer' : Bytes) (h : Head) :
    SameHead (afterHead data urlBuffer h) (afterHead data' urlBuffer' h) :=
  (afterLines_sameHead data data' urlBuffer urlBuffer' h.requestLine h.lines).tookHeaderLine
    (by rw [afterLines_cur, afterLines_cur]) h.last

theorem SameHead.trans {a b c : HttpRequest} (h : SameHead a b) (h' : SameHead b c) :
    SameHead a c where
  methodStart := h.methodStart.trans h'.methodStart
  methodLength := h.methodLength.trans h'.methodLength
  urlStart := h.urlStart.trans h'.urlStart
  urlLength := h.urlLength.trans h'.urlLength
  urlParametersStart := h.urlParametersStart.trans h'.urlParametersStart
  urlParametersLength := h.urlParametersLength.trans h'.urlParametersLength
  headers := h.headers.trans h'.headers
  contentLength := h.contentLength.trans h'.contentLength

/-! ## Heads that were read to their end -/

/-- The data begins with the head `h` and a run that closes it, and the ranges are those of
`h`. -/
structure Closes (h : Head) (back : Bytes) (r : HttpRequest) : Prop where
  data : r.data = h.bytes ++ back
  head : h.WellFormed
  closing : 1 < lineBreakCounter (back.takeWhile isBreak)
  same : SameHead r (afterHead r.data [] h)

/-- More data, another URL buffer, another state, and the position of the body. -/
theorem Closes.grow {h : Head} {back : Bytes} {r s : HttpRequest} (hc : Closes h back r)
    (e : Bytes) (hdata : s.data = r.data ++ e) (hsame : SameHead s r) :
    Closes h (back ++ e) s := by
  refine ⟨by rw [hdata, hc.data, List.append_assoc], hc.head, ?_,
    hsame.trans (hc.same.trans (afterHead_sameHead _ _ _ _ h))⟩
  have hclosing := hc.closing
  have hfront : back.takeWhile isBreak <+: (back ++ e).takeWhile isBreak := by
    by_cases hall : ∀ c ∈ back, isBreak c = true
    · rw [Scan.takeWhile_all hall, List.takeWhile_append_of_pos hall]
      exact List.prefix_append _ _
    · cases hstop : back.dropWhile isBreak with
      | nil => exact absurd (Scan.dropWhile_nil_iff.mp hstop) hall
      | cons c tail =>
        exact (Scan.takeWhile_extend hstop).symm ▸ List.prefix_rfl
  exact hclosing.trans_le (hfront.sublist.count_le lf)

/-- The round that finishes a request, or goes on to its body, stands behind a head. -/
theorem closes_of_visits {data urlBuffer : Bytes} {r : HttpRequest}
    (hv : Visits (startState data urlBuffer) r)
    (hstate : r.state = .content ∨
      (r.state = .headerLineBreak ∧ 1 < lineBreakCounter (r.rest.takeWhile isBreak))) :
    ∃ h back, Closes h back r := by
  cases visits_shape hv with
  | headerLineBreak h c tail hdata hh hc =>
    rcases hstate with hstate | ⟨_, htwo⟩
    · exact absurd (hstate.symm.trans (afterHead_state data urlBuffer h)) (by decide)
    · rw [rest_afterHead hdata] at htwo
      exact ⟨h, c :: tail, by rw [afterHead_data, hdata], hh, htwo,
        afterHead_sameHead _ _ _ _ h⟩
  | content h closing body hh hne =>
    refine ⟨h, closing ++ body, ?_, hh.head, ?_, ?_⟩
    · exact (afterHead_data data urlBuffer h).trans hh.data_eq
    · rw [hh.takeWhile]
      exact hh.closing.two
    · have hsame := afterHead_sameHead data data urlBuffer [] h
      rw [show ((afterHead data urlBuffer h).tookClosing closing).data = data from
        afterHead_data data urlBuffer h]
      exact ⟨hsame.methodStart, hsame.methodLength, hsame.urlStart, hsame.urlLength,
        hsame.urlParametersStart, hsame.urlParametersLength, hsame.headers, hsame.contentLength⟩
  | _ =>
    simp [startState, tookMethod, tookUrl, afterSpaces, tookSpaces, tookKey, tookSep] at hstate

/-! ## What is recorded of such a head -/

section
variable {h : Head} {back : Bytes} {r : HttpRequest}

theorem Closes.headerBytes (hc : Closes h back r) :
    r.headerBytes = h.headerLines.map HeaderLine.pair := by
  have hhead : (afterHead r.data [] h).headerBytes = h.headerLines.map HeaderLine.pair :=
    headerBytes_afterHead hc.data
  rw [← hhead]
  unfold HttpRequest.headerBytes
  rw [hc.same.headers]
  refine List.map_congr_left (fun head _ => ?_)
  unfold fieldBytes bytesAt
  rw [afterHead_data]

theorem Head.WellFormed.headerLine (hh : h.WellFormed) {l : HeaderLine} (hl : l ∈ h.headerLines) :
    l.WellFormed := by
  unfold Head.headerLines at hl
  rcases List.mem_append.mp hl with hl | hl
  · obtain ⟨x, hx, rfl⟩ := List.mem_map.mp hl
    exact (hh.lines x hx).1
  · rw [List.mem_singleton.mp hl]
    exact hh.last

/-- Every recorded header has the name and the value of a header line. -/
theorem Closes.header (hc : Closes h back r) {head : Header} (hhead : head ∈ r.headers) :
    ∃ l : HeaderLine, l.WellFormed ∧ r.fieldBytes head.key = l.key ∧
      r.fieldBytes head.value = l.value := by
  have hmem : (r.fieldBytes head.key, r.fieldBytes head.value) ∈ r.headerBytes :=
    List.mem_map_of_mem hhead
  rw [hc.headerBytes] at hmem
  obtain ⟨l, hl, heq⟩ := List.mem_map.mp hmem
  obtain ⟨hkey, hvalue⟩ := Prod.mk.inj heq
  exact ⟨l, hc.head.headerLine hl, hkey.symm, hvalue.symm⟩

theorem Closes.ranges (hc : Closes h back r) :
    Laid (afterHead r.data [] h) ∧ r.ranges = (afterHead r.data [] h).ranges := by
  constructor
  · cases back with
    | nil => exact absurd hc.closing (by decide)
    | cons c back =>
      have hbreak : isBreak c = true := by
        by_contra hno
        have hclosing := hc.closing
        rw [List.takeWhile_cons_of_neg hno] at hclosing
        exact absurd hclosing (by decide)
      exact (laid_start r.data []).visits (visits_afterHead hc.data hc.head hbreak)
  · unfold HttpRequest.ranges methodField urlField urlParametersField
    rw [hc.same.methodStart, hc.same.methodLength, hc.same.urlStart, hc.same.urlLength,
      hc.same.urlParametersStart, hc.same.urlParametersLength, hc.same.headers]

theorem Closes.order (hc : Closes h back r) : (recorded r.ranges).Pairwise Field.Behind := by
  rw [hc.ranges.2]
  exact hc.ranges.1.order

theorem header_ranges {head : Header} (hhead : head ∈ r.headers) :
    head.key ∈ r.ranges ∧ head.value ∈ r.ranges := by
  have hall : ∀ f ∈ [head.key, head.value], f ∈ r.ranges := fun f hf =>
    List.mem_append_right _ (List.mem_flatMap.mpr ⟨head, hhead, hf⟩)
  exact ⟨hall _ (by simp), hall _ (by simp)⟩

/-- The ranges lie inside the head. -/
theorem Closes.stop_le (hc : Closes h back r) {f : Field} (hf : f ∈ r.ranges) :
    f.stop ≤ h.bytes.length := by
  rw [hc.ranges.2] at hf
  have hend := hc.ranges.1.ends f hf
  rwa [afterHead_cur] at hend

theorem Closes.stop_le_size (hc : Closes h back r) {f : Field} (hf : f ∈ r.ranges) :
    f.start + f.length ≤ r.size := by
  have hle := hc.stop_le hf
  have hsize : r.size = h.bytes.length + back.length := by
    unfold HttpRequest.size
    rw [hc.data, List.length_append]
  unfold Field.stop at hle
  omega

theorem value_length_pos {l : HeaderLine} (hl : l.WellFormed) {f : Field}
    (hf : r.fieldBytes f = l.value) : 0 < f.length := by
  rw [Nat.pos_iff_ne_zero]
  intro hzero
  refine hl.value_ne ?_
  rw [← hf]
  unfold fieldBytes bytesAt
  rw [hzero, List.take_zero]

/-- No two headers have the same value range. -/
theorem Closes.value_ne (hc : Closes h back r) {front mid tail : List Header} {a b : Header}
    (heq : r.headers = front ++ a :: (mid ++ b :: tail)) : a.value ≠ b.value := by
  have hmem : ∀ head ∈ [a, b], head ∈ r.headers := by
    intro head hhead
    rw [heq]
    rcases List.mem_cons.mp hhead with rfl | hhead
    · simp
    · rw [List.mem_singleton.mp hhead]
      simp
  have hpos : ∀ head ∈ [a, b], 0 < head.value.length := by
    intro head hhead
    obtain ⟨l, hl, _, hvalue⟩ := hc.header (hmem head hhead)
    exact value_length_pos hl hvalue
  have hrec : ∀ head ∈ [a, b], recorded [head.value] = [head.value] := by
    intro head hhead
    have hne : head.value ≠ {} := fun h0 => by
      have := hpos head hhead
      rw [h0] at this
      exact absurd this (by decide)
    exact List.filter_eq_self.mpr (fun f hf => by rw [List.mem_singleton.mp hf]; simpa using hne)
  have hsplit : r.ranges = ([r.methodField, r.urlField, r.urlParametersField] ++
      headerFields front ++ [a.key]) ++ [a.value] ++ (headerFields mid ++ [b.key]) ++ [b.value] ++
        headerFields tail := by
    unfold HttpRequest.ranges
    rw [heq]
    simp [headerFields]
  have horder := hc.order
  rw [hsplit] at horder
  simp only [recorded_append, hrec a (by simp), hrec b (by simp)] at horder
  have hbehind : a.value.Behind b.value := by
    rw [List.pairwise_append] at horder
    obtain ⟨horder, _, _⟩ := horder
    rw [List.pairwise_append] at horder
    exact horder.2.2 _ (by simp) _ (by simp)
  intro hsame
  have hlt := hpos a (by simp)
  rw [← hsame] at hbehind
  unfold Field.Behind Field.stop at hbehind
  omega

end

/-! ## The calls up to the last -/

/-- What the calls so far have come to: a finished request, a refused one, one that waits for its
body, or one that waits in front of the body. -/
inductive Tracked (r : HttpRequest) : Prop
  | finished {h : Head} {back : Bytes} (hstate : r.state = .finishOk) (hc : Closes h back r)
  | refused (hiter : r.iteration.2 = some .finishInvalid)
  | body {h : Head} {back : Bytes} (hstate : r.state = .content) (hc : Closes h back r)
  | waits {urlBuffer : Bytes} (hvisits : Visits (startState r.data urlBuffer) r)
      (hstate : r.state ≠ .content)

theorem Closes.postParse {h : Head} {back : Bytes} {r : HttpRequest} (hc : Closes h back r)
    (hstate : r.state = .finishOk) : Tracked r.postParse.2 := by
  obtain ⟨urlBuffer, state, heq, hs⟩ := r.postParse_eq
  rw [heq]
  rcases hs with rfl | rfl
  · exact .finished hstate (by
      have hgrow := hc.grow [] (List.append_nil _).symm (s := { r with urlBuffer := urlBuffer })
        ⟨rfl, rfl, rfl, rfl, rfl, rfl, rfl, rfl⟩
      exact hgrow)
  · exact .refused rfl

/-- What a round that returns leaves behind, with `postParse` after it. -/
theorem tracked_finish {last : HttpRequest} {x : ParseResult × HttpRequest} (hr : InRange last)
    (hx : last.iteration = (x.2, some x.1))
    (hcloses : last.state = .content ∨ (last.state = .headerLineBreak ∧
      1 < lineBreakCounter (last.rest.takeWhile isBreak)) → ∃ h back, Closes h back last)
    (hwaits : last.state ≠ .content → ∃ urlBuffer, Visits (startState last.data urlBuffer) last)
    (hnew : last.state ≠ .finishOk) : Tracked (finish x).2 := by
  obtain ⟨result, r'⟩ := x
  dsimp only at hx
  cases result with
  | finishInvalid =>
    rcases (settled_finish (z := (.finishInvalid, r')) hr hx (by simp)).again with h | h
    · exact absurd h.1 (by simp [finish])
    · exact .refused h.2
  | needMoreData =>
    have heq : r' = last := by
      rcases iteration_returns hx with ⟨heq, _⟩ | ⟨_, h, _⟩ | ⟨h, _⟩ | ⟨h, _⟩
      · exact heq
      · exact absurd h (by decide)
      · exact absurd h (by decide)
      · exact absurd h (by decide)
    show Tracked r'
    rw [heq]
    by_cases hcontent : last.state = .content
    · obtain ⟨h, back, hc⟩ := hcloses (Or.inl hcontent)
      exact .body hcontent hc
    · obtain ⟨urlBuffer, hv⟩ := hwaits hcontent
      exact .waits hv hcontent
  | finishOk =>
    show Tracked r'.postParse.2
    rcases iteration_returns hx with ⟨_, h⟩ | ⟨_, h, _⟩ | ⟨_, hstate, _, hleft⟩ |
      ⟨_, hstate, _, hleft⟩
    · exact absurd (h rfl) hnew
    · exact absurd h (by decide)
    · have hiter : last.iterHeaderLineBreak = (r', some .finishOk) := by
        unfold iteration at hx
        rwa [hstate] at hx
      obtain ⟨h, back, hc⟩ := hcloses (Or.inr ⟨hstate, (iterHeaderLineBreak_finishOk hiter).1⟩)
      have hr' : r' = _ := hleft
      rw [hr']
      exact Closes.postParse (hc.grow [] (List.append_nil _).symm
        ⟨rfl, rfl, rfl, rfl, rfl, rfl, rfl, rfl⟩) rfl
    · obtain ⟨h, back, hc⟩ := hcloses (Or.inl hstate)
      have hr' : r' = _ := hleft
      rw [hr']
      exact Closes.postParse (hc.grow [] (List.append_nil _).symm
        ⟨rfl, rfl, rfl, rfl, rfl, rfl, rfl, rfl⟩) rfl

/-- A call from a state whose first round returns. -/
theorem parses_returned {r s r' : HttpRequest} {data : Bytes} {result result' : ParseResult}
    (hiter : HttpRequest.iteration { r with data := data } = (s, some result'))
    (hparse : Parses r data result r') : (result, r') = finish (result', s) := by
  obtain ⟨last, x, hv, hx, hfin⟩ := parses_iff.mp hparse
  have hlast : last = { r with data := data } := visits_returned (by rw [hiter]) hv
  rw [hlast, hiter] at hx
  obtain ⟨hs, hresult⟩ := Prod.mk.inj hx
  rw [← hfin, hs, Option.some.inj hresult]

theorem Tracked.call {r r' : HttpRequest} {e : Bytes} {result : ParseResult} (h : Tracked r)
    (hr : InRange r) (hparse : Parses r (r.data ++ e) result r') : Tracked r' := by
  have hrange : InRange (r.extend e) := hr.extend e
  cases h with
  | finished hstate hc =>
    have hiter : (r.extend e).iteration = (r.extend e, some .finishOk) := by
      unfold iteration
      rw [extend_state, hstate]
    have heq := congrArg Prod.snd (parses_returned hiter hparse)
    dsimp only at heq
    rw [heq]
    exact Closes.postParse (hc.grow e rfl ⟨rfl, rfl, rfl, rfl, rfl, rfl, rfl, rfl⟩) hstate
  | refused hinvalid =>
    have hiter : r.iteration = (r.iteration.1, some .finishInvalid) := Prod.ext rfl hinvalid
    have hgrow := iteration_returns_extend hr hiter (by decide) e
    have heq := congrArg Prod.snd (parses_returned hgrow hparse)
    dsimp only at heq
    rw [heq]
    rcases (settled_finish (z := (.finishInvalid, r.iteration.1.extend e)) hrange hgrow
      (by simp)).again with h | h
    · exact absurd h.1 (by simp [finish])
    · exact .refused h.2
  | body hstate hc =>
    cases hiter : (r.extend e).iteration with
    | mk s answer =>
      cases answer with
      | none =>
        unfold iteration at hiter
        rw [extend_state, hstate] at hiter
        exact absurd (congrArg Prod.snd hiter) (iterContent_returns _)
      | some result' =>
        have heq := congrArg Prod.snd (parses_returned hiter hparse)
        dsimp only at heq
        rw [heq]
        refine tracked_finish (x := (result', s)) hrange hiter ?_ (fun h => absurd hstate h) ?_
        · exact fun _ => ⟨_, _, hc.grow e rfl ⟨rfl, rfl, rfl, rfl, rfl, rfl, rfl, rfl⟩⟩
        · rw [extend_state, hstate]
          decide
  | waits hvisits hstate =>
    obtain ⟨last, x, hv, hx, hfin⟩ := parses_iff.mp hparse
    have hpath := (hvisits.extend (inRange_start _ _) e hstate).trans
      (show Visits (r.extend e) last from hv)
    have hdata : last.data = r.data ++ e := Visits.data hpath
    have heq := congrArg Prod.snd hfin
    dsimp only at heq
    rw [← heq]
    refine tracked_finish (hrange.visits hv) hx (closes_of_visits hpath) (fun _ => ?_) ?_
    · exact ⟨_, by rw [hdata]; exact hpath⟩
    · intro hfinished
      cases visits_shape hpath
      all_goals simp [startState, tookMethod, tookUrl, afterSpaces, tookSpaces, tookKey, tookSep,
        tookClosing] at hfinished

theorem session_tracked {b : Bytes} {r : HttpRequest} (h : Session b r) : Tracked r := by
  induction h with
  | start r =>
    have hvisits : Visits (startState r.reset.data r.urlBuffer) r.reset :=
      Relation.ReflTransGen.refl
    exact .waits hvisits (by simp [reset])
  | @call r r' n result hsession hgrow hn hparse ih =>
    have hinv := session_inv hsession
    have hfront : b.take n = r.data ++ (b.take n).drop r.size := by
      have hdata : r.data = (b.take n).take r.size := by
        rw [List.take_take, Nat.min_eq_left hgrow]
        exact hinv.data
      conv_rhs => rw [hdata, List.take_append_drop]
    rw [hfront] at hparse
    exact ih.call hinv.inRange hparse

theorem session_of_parse {b : Bytes} {r : HttpRequest} {result : ParseResult}
    (h : parse {} b = some (result, r)) : Session b r :=
  Session.call (Session.start {}) (Nat.zero_le _) (Nat.le_refl b.length)
    (by rw [List.take_length]; exact ⟨_, h⟩)

/-- However the bytes arrived, a finished request stands at a head with its closing run. -/
theorem session_closes {b : Bytes} {r : HttpRequest} (h : Session b r)
    (hstate : r.state = .finishOk) : ∃ h back, Closes h back r := by
  cases session_tracked h with
  | finished _ hc => exact ⟨_, _, hc⟩
  | refused hiter =>
    unfold iteration at hiter
    rw [hstate] at hiter
    simp at hiter
  | body hcontent _ =>
    rw [hstate] at hcontent
    simp at hcontent
  | waits hvisits _ =>
    have hshape := visits_shape hvisits
    generalize r.data = data at hshape
    cases hshape
    all_goals simp [startState, tookMethod, tookUrl, afterSpaces, tookSpaces, tookKey, tookSep,
      tookClosing] at hstate

end HttpRequest
end EpollHttp
