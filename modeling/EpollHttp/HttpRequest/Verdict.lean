import EpollHttp.HttpRequest.Session

/-
The verdict of a call and the calls after it.

A round that returns a verdict returns it on every longer buffer, and `postParse` looks at the
same URL again, so a verdict stands.
-/

namespace EpollHttp
namespace HttpRequest

open CString

/-! ## Outcomes -/

/-- The loop begun at `r` returns `x`. -/
def Outcome (r : HttpRequest) (x : ParseResult × HttpRequest) : Prop :=
  ∃ last, Visits r last ∧ last.iteration = (x.2, some x.1)

theorem outcome_unique {r last s : HttpRequest} {x y : ParseResult × HttpRequest}
    (hlast : Visits r last) (hx : last.iteration = (x.2, some x.1)) (hs : Visits r s)
    (hy : s.iteration = (y.2, some y.1)) : last = s ∧ x = y := by
  have heq : last = s := by
    rcases visits_linear hlast hs with h | h
    · exact (visits_returned (by rw [hx]) h).symm
    · exact visits_returned (by rw [hy]) h
  rw [heq, hy] at hx
  have hpair := Prod.mk.inj hx
  exact ⟨heq, Prod.ext (Option.some.inj hpair.2).symm hpair.1.symm⟩

/-- What `parse` answers from any state that the loop visits on its way to the outcome. -/
theorem parse_outcome {r : HttpRequest} {data : Bytes} {y : ParseResult × HttpRequest}
    (h : parse r data = some y) : ∃ x, Outcome { r with data := data } x ∧ finish x = y := by
  obtain ⟨last, x, hv, hx, hfin⟩ := parses_iff.mp ⟨_, h⟩
  exact ⟨x, ⟨last, hv, hx⟩, hfin⟩

/-- Where only line breaks are visible, a round that returns a verdict has seen the end of a head
without a body. -/
theorem iterHeaderLineBreak_returns {r r' : HttpRequest} {result : ParseResult}
    (hall : ∀ c ∈ r.rest, isBreak c = true) (h : r.iterHeaderLineBreak = (r', some result))
    (hresult : result ≠ .needMoreData) :
    1 < lineBreakCounter r.rest ∧ r.contentLength = 0 ∧ r' = { r with state := .finishOk } ∧
      result = .finishOk := by
  unfold iterHeaderLineBreak readHeaderLineBreak at h
  rw [Scan.takeWhile_all hall, scan_end hall] at h
  by_cases htwo : 1 < lineBreakCounter r.rest
  · rw [if_pos htwo] at h
    dsimp only at h
    split at h
    · rename_i hzero
      have hpair := Prod.mk.inj h
      exact ⟨htwo, hzero, hpair.1.symm, (Option.some.inj hpair.2).symm⟩
    · simp at h
  · rw [if_neg htwo] at h
    exact absurd (Option.some.inj (Prod.mk.inj h).2).symm hresult

/-- A round that returns a verdict gives the same on every longer buffer. -/
theorem iteration_returns_extend {r r' : HttpRequest} {result : ParseResult} (hr : InRange r)
    (h : r.iteration = (r', some result)) (hresult : result ≠ .needMoreData) (e : Bytes) :
    (r.extend e).iteration = (r'.extend e, some result) := by
  by_cases hopen : r.state = .headerLineBreak ∧ r.OpenRun e
  · obtain ⟨hline, hall, _⟩ := hopen
    have hiter : r.iterHeaderLineBreak = (r', some result) := by
      unfold iteration at h
      rwa [hline] at h
    obtain ⟨htwo, hzero, rfl, rfl⟩ := iterHeaderLineBreak_returns hall hiter hresult
    unfold iteration iterHeaderLineBreak
    rw [extend_state, hline]
    dsimp only
    rw [readHeaderLineBreak_open e hr.cur hall htwo]
    dsimp only
    rw [extend_contentLength, if_pos hzero]
    rfl
  · have hsettles : Settles r e := by
      refine ⟨fun hp => ?_, fun hp ho => hopen ⟨hp, ho⟩⟩
      exfalso
      unfold iteration iterUrlParameters at h
      rw [hp] at h
      dsimp only at h
      split at h <;> simp at h
    rw [iteration_extend e hr hsettles (by rw [h]; simpa using hresult), h]
    rfl

theorem parse_returns {r r' : HttpRequest} {data : Bytes} {result : ParseResult}
    (h : HttpRequest.iteration { r with data := data } = (r', some result)) :
    parse r data = some (finish (result, r')) := by
  unfold parse
  rw [parseFuel_eq]
  unfold roundBound parseInternal
  rw [h]
  rfl

theorem postParse_ne_needMoreData (r : HttpRequest) : r.postParse.1 ≠ .needMoreData := by
  unfold postParse
  split
  · simp
  · split <;> simp

theorem finish_of_ne {x : ParseResult × HttpRequest} (h : x.1 ≠ .finishOk) : finish x = x := by
  obtain ⟨result, r⟩ := x
  cases result
  · exact absurd rfl h
  · rfl
  · rfl

theorem finish_needMoreData (x : ParseResult × HttpRequest) :
    (finish x).1 = .needMoreData ↔ x.1 = .needMoreData := by
  obtain ⟨result, r⟩ := x
  cases result
  · exact ⟨fun h => absurd h (postParse_ne_needMoreData r), fun h => by simp at h⟩
  · exact Iff.rfl
  · exact Iff.rfl

theorem urlBytes_extend {r : HttpRequest} (h : r.urlStart + r.urlLength ≤ r.size) (e : Bytes) :
    (r.extend e).urlBytes = r.urlBytes :=
  bytesAt_extend h e

/-! ## Verdicts stand -/

/-- The answers of calls on `data` extended by the pieces in turn. -/
def verdicts : HttpRequest → Bytes → List Bytes → Option (List ParseResult)
  | _, _, [] => some []
  | r, data, e :: es =>
    match parse r (data ++ e) with
    | some (result, r') => (verdicts r' (data ++ e) es).map (result :: ·)
    | none => none

/-- The answer `x` of a call stands: every later call on longer data gives it again. -/
def Stands (x : ParseResult × HttpRequest) : Prop :=
  x.1 ≠ .needMoreData →
    ∀ es, verdicts x.2 x.2.data es = some (List.replicate es.length x.1)

/-- A verdict with a request that will give it again. -/
structure Settled (x : ParseResult × HttpRequest) : Prop where
  inRange : InRange x.2
  again : (x.1 = .finishOk ∧ x.2.state = .finishOk ∧ urlAccepted x.2.urlBytes = true) ∨
    (x.1 = .finishInvalid ∧ x.2.iteration.2 = some .finishInvalid)

theorem iteration_of_headerValue {r : HttpRequest} (h : r.state = .headerValue) :
    r.iteration = r.iterHeaderValue := by
  unfold iteration
  rw [h]

theorem iterHeaderValue_headers (r : HttpRequest) (headers : List Header) :
    (iterHeaderValue { r with headers := headers }).2 = r.iterHeaderValue.2 := by
  have hread : readHeaderValue { r with headers := headers } = r.readHeaderValue := rfl
  unfold iterHeaderValue
  rw [hread]
  split
  · show (if namesContentLength (r.fieldBytes r.curKey) = true then _ else _ : Iteration).2 =
      (if namesContentLength (r.fieldBytes r.curKey) = true then _ else _ : Iteration).2
    split
    · split <;> rfl
    · rfl
  · rfl
  · rfl

/-- The loop returned a verdict, and `postParse` looked at the URL. -/
theorem settled_finish {last : HttpRequest} {z : ParseResult × HttpRequest} (hr : InRange last)
    (hz : last.iteration = (z.2, some z.1)) (hne : z.1 ≠ .needMoreData) : Settled (finish z) := by
  obtain ⟨result, r'⟩ := z
  dsimp only at hz hne
  have hrange : InRange r' := by
    rcases iteration_returns hz with ⟨heq, _⟩ | ⟨_, _, _, heq⟩ | ⟨_, _, _, heq⟩ | ⟨_, _, _, heq⟩ <;>
      rw [heq] <;> exact ⟨hr.cur, hr.curKey, hr.url⟩
  cases result with
  | finishOk =>
    have hstate : r'.state = .finishOk := by
      rcases iteration_returns hz with ⟨heq, hok⟩ | ⟨_, h, _⟩ | ⟨_, _, _, heq⟩ | ⟨_, _, _, heq⟩
      · rw [heq]
        exact hok rfl
      · simp at h
      · rw [heq]
      · rw [heq]
    show Settled r'.postParse
    cases hurl : urlAccepted r'.urlBytes with
    | true =>
      obtain ⟨urlBuffer, heq, _⟩ := postParse_accepted hstate hrange.url hurl
      rw [heq]
      exact ⟨⟨hrange.cur, hrange.curKey, hrange.url⟩, Or.inl ⟨rfl, hstate, hurl⟩⟩
    | false =>
      obtain ⟨urlBuffer, heq⟩ := postParse_rejected hstate hrange.url hurl
      rw [heq]
      exact ⟨⟨hrange.cur, hrange.curKey, hrange.url⟩, Or.inr ⟨rfl, rfl⟩⟩
  | finishInvalid =>
    refine ⟨hrange, Or.inr ⟨rfl, ?_⟩⟩
    show r'.iteration.2 = _
    rcases iteration_returns hz with ⟨heq, _⟩ | ⟨hstate, _, headers, heq⟩ | ⟨h, _⟩ | ⟨h, _⟩
    · rw [heq] at hz ⊢
      rw [hz]
    · have hvalue : last.iterHeaderValue.2 = some .finishInvalid := by
        rw [← iteration_of_headerValue hstate, hz]
      rw [heq, ← hvalue, ← iterHeaderValue_headers last headers]
      exact congrArg Prod.snd (iteration_of_headerValue hstate)
    · simp at h
    · simp at h
  | needMoreData => exact absurd rfl hne

/-- One later call on longer data. -/
theorem Settled.later {x : ParseResult × HttpRequest} (h : Settled x) (e : Bytes) :
    ∃ r', parse x.2 (x.2.data ++ e) = some (x.1, r') ∧ r'.data = x.2.data ++ e ∧
      Settled (x.1, r') := by
  obtain ⟨result, r⟩ := x
  obtain ⟨hrange, hagain⟩ := h
  dsimp only at hrange hagain ⊢
  have hgrown : InRange (r.extend e) := hrange.extend e
  rcases hagain with ⟨rfl, hstate, hurl⟩ | ⟨rfl, hinvalid⟩
  · have hiter : (r.extend e).iteration = (r.extend e, some .finishOk) := by
      unfold iteration
      rw [extend_state, hstate]
    have hparse := parse_returns (r := r) hiter
    obtain ⟨urlBuffer, heq, _⟩ := postParse_accepted (r := r.extend e) hstate hgrown.url
      (by rw [urlBytes_extend hrange.url]; exact hurl)
    have hsettled := settled_finish (z := (.finishOk, r.extend e)) hgrown hiter (by simp)
    rw [show finish (.finishOk, r.extend e) = (r.extend e).postParse from rfl, heq] at hparse
    rw [show finish (.finishOk, r.extend e) = (r.extend e).postParse from rfl, heq] at hsettled
    exact ⟨_, hparse, rfl, hsettled⟩
  · have hiter : r.iteration = (r.iteration.1, some .finishInvalid) := Prod.ext rfl hinvalid
    have hgrow := iteration_returns_extend hrange hiter (by decide) e
    have hparse := parse_returns (r := r) hgrow
    refine ⟨r.iteration.1.extend e, hparse, ?_, ?_⟩
    · show r.iteration.1.data ++ e = r.data ++ e
      rcases iteration_returns hiter with ⟨heq, _⟩ | ⟨_, _, _, heq⟩ | ⟨h, _⟩ | ⟨h, _⟩
      · rw [heq]
      · rw [heq]
      · simp at h
      · simp at h
    · exact settled_finish (z := (.finishInvalid, r.iteration.1.extend e)) hgrown hgrow (by simp)

theorem Settled.verdicts {x : ParseResult × HttpRequest} (h : Settled x) (es : List Bytes) :
    verdicts x.2 x.2.data es = some (List.replicate es.length x.1) := by
  induction es generalizing x with
  | nil => rfl
  | cons e es ih =>
    obtain ⟨r', hparse, hdata, hsettled⟩ := h.later e
    have hrest := ih hsettled
    dsimp only at hrest
    unfold HttpRequest.verdicts
    rw [hparse]
    dsimp only
    rw [← hdata, hrest]
    rfl

theorem Parses.data {r r' : HttpRequest} {data : Bytes} {result : ParseResult}
    (h : Parses r data result r') : r'.data = data := by
  obtain ⟨last, hv, _, headers, contentStart, urlBuffer, state, heq, _⟩ := h.last
  rw [heq]
  exact hv.data

end HttpRequest
end EpollHttp
