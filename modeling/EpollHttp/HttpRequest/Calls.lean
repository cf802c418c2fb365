import EpollHttp.HttpRequest.CheckedUrl

/-
Calls of `parse` and `reset` in any order.

The positions of a request stay inside its data, and the calls make no access outside a buffer.
The ranges follow each other as long as `parse` is not called again on a request whose
Content-Length was too long: that call does not leave the state of the header value, and records
the header once more.
-/

namespace EpollHttp
namespace HttpRequest

open CString

/-- The requests that calls lead to; from one `reset` to the next the data grows. -/
inductive Calls : HttpRequest → Prop
  | start : Calls {}
  | reset {r : HttpRequest} (h : Calls r) : Calls r.reset
  | parse {r r' : HttpRequest} {e : Bytes} {result : ParseResult} (h : Calls r)
      (hparse : Parses r (r.data ++ e) result r') : Calls r'

/-- The value of a header that names Content-Length is in sight, and `buf` has no room for it. -/
def LongLength (r : HttpRequest) (length : Nat) : Prop :=
  r.state = .headerValue ∧ r.readHeaderValue = .ok length ∧
    namesContentLength (r.fieldBytes r.curKey) = true ∧ bufChars < length

def Refused (r : HttpRequest) : Prop := ∃ length, LongLength r length

/-- Calls that leave a refused request alone until it is reset. -/
inductive CleanCalls : HttpRequest → Prop
  | start : CleanCalls {}
  | reset {r : HttpRequest} (h : CleanCalls r) : CleanCalls r.reset
  | parse {r r' : HttpRequest} {e : Bytes} {result : ParseResult} (h : CleanCalls r)
      (hr : ¬ Refused r) (hparse : Parses r (r.data ++ e) result r') : CleanCalls r'

/-- The position and the ranges lie inside the data, and the ranges follow each other. -/
structure Placed (r : HttpRequest) : Prop where
  cur : r.cur ≤ r.size
  ends : ∀ f ∈ r.ranges, f.stop ≤ r.size
  order : (recorded r.ranges).Pairwise Field.Behind

/-- What holds between two calls: of the request, of all that a next call goes through, and of the
accesses that it makes. -/
structure Safe (r : HttpRequest) : Prop where
  placed : Placed r
  visited : ∀ e s, Visits (r.extend e) s → Placed s
  reads : ∀ fuel e, parseFuelAt fuel r (r.data ++ e) = some (parseFuel fuel r (r.data ++ e))
  scans : ∀ front, r.isUrlPrefixAt front = some (r.isUrlPrefix front)

/-! ## What a round that returns leaves -/

/-- The header is recorded in front of the test of its length. -/
def pushedHeader (r : HttpRequest) (length : Nat) : HttpRequest :=
  { r with
    headers := r.headers ++ [{ key := r.curKey, value := { start := r.cur, length := length } }] }

theorem iterHeaderValue_returns {r r' : HttpRequest} {result : ParseResult}
    (hstate : r.state = .headerValue) (h : r.iterHeaderValue = (r', some result)) :
    r' = r ∨ ∃ length, LongLength r length ∧ result = .finishInvalid ∧
      r' = r.pushedHeader length := by
  unfold iterHeaderValue at h
  split at h
  · rename_i length hread
    dsimp only at h
    split at h
    · rename_i hname
      split at h
      · rename_i hlong
        obtain ⟨hr', hresult⟩ := Prod.mk.inj h
        exact Or.inr ⟨length, ⟨hstate, hread, hname, hlong⟩, (Option.some.inj hresult).symm,
          hr'.symm⟩
      · simp at h
    · simp at h
  · exact Or.inl (Prod.mk.inj h).1.symm
  · exact Or.inl (Prod.mk.inj h).1.symm

/-- A round that returns leaves the request, or a header more, or a finished request. -/
theorem iteration_leaves {r r' : HttpRequest} {result : ParseResult}
    (h : r.iteration = (r', some result)) :
    (r' = r ∧ (result = .finishOk → r.state = .finishOk)) ∨
    (∃ length, LongLength r length ∧ result = .finishInvalid ∧ r' = r.pushedHeader length) ∨
    (result = .finishOk ∧ ∃ contentStart,
      r' = { r with contentStart := contentStart, state := .finishOk }) := by
  rcases iteration_returns h with h' | ⟨hstate, rfl, _⟩ | ⟨hok, _, _, rfl⟩ | ⟨hok, _, _, rfl⟩
  · exact Or.inl h'
  · have hiter : r.iterHeaderValue = (r', some .finishInvalid) := by
      unfold iteration at h
      rwa [hstate] at h
    rcases iterHeaderValue_returns hstate hiter with rfl | hlong
    · exact Or.inl ⟨rfl, fun h => absurd h (by decide)⟩
    · exact Or.inr (Or.inl hlong)
  · exact Or.inr (Or.inr ⟨hok, _, rfl⟩)
  · exact Or.inr (Or.inr ⟨hok, _, rfl⟩)

/-- Recording the header changes nothing that the next round looks at. -/
theorem LongLength.pushedHeader {r : HttpRequest} {length : Nat} (h : LongLength r length) :
    Refused (r.pushedHeader length) :=
  ⟨length, h⟩

/-! ## Bounds -/

/-- The position and the ranges, and the terminator of an accepted URL. -/
structure Bounded (r : HttpRequest) : Prop where
  inRange : InRange r
  ends : ∀ f ∈ r.ranges, f.stop ≤ r.size
  nul : r.state = .finishOk → 0 ∈ r.urlBuffer

theorem mem_ranges {r : HttpRequest} {f : Field} : f ∈ r.ranges ↔
    f = r.methodField ∨ f = r.urlField ∨ f = r.urlParametersField ∨ f ∈ headerFields r.headers := by
  unfold ranges
  simp

/-- The ranges that a round records end inside the data. -/
theorem next_ranges {r r' : HttpRequest} {f : Field} (hr : InRange r) (hnext : Next r r')
    (hf : f ∈ r'.ranges) : f ∈ r.ranges ∨ f.stop ≤ r.size := by
  rw [mem_ranges] at hf ⊢
  unfold Next iteration at hnext
  split at hnext
  · obtain ⟨token, _, hrest, _, rfl⟩ := iterMethod_next hnext
    rcases hf with rfl | hf
    · exact Or.inr (cur_add_length_le hr.cur hrest)
    · exact Or.inl (Or.inr hf)
  · obtain ⟨_, _, _, _, _, _, _, rfl⟩ := iterSpaceAfterMethod_next hnext
    exact Or.inl hf
  · have hurl : ∀ {token back : Bytes} {next : State}, r.rest = token ++ back →
        r' = r.tookUrl token next → (f = r.methodField ∨ f = r.urlField ∨
          f = r.urlParametersField ∨ f ∈ headerFields r.headers) ∨ f.stop ≤ r.size := by
      rintro token back next hrest rfl
      rcases hf with hf | rfl | hf
      · exact Or.inl (Or.inl hf)
      · exact Or.inr (cur_add_length_le hr.cur hrest)
      · exact Or.inl (Or.inr (Or.inr hf))
    obtain ⟨token, _, _, ⟨hrest, heq⟩ | ⟨hrest, heq⟩⟩ := iterUrl_next hnext
    · exact hurl hrest heq
    · exact hurl hrest heq
  · obtain ⟨token, _, hrest, _, rfl⟩ | ⟨_, rfl⟩ := iterUrlParameters_next hnext
    · rcases hf with hf | hf | rfl | hf
      · exact Or.inl (Or.inl hf)
      · exact Or.inl (Or.inr (Or.inl hf))
      · exact Or.inr (cur_add_length_le hr.cur hrest)
      · exact Or.inl (Or.inr (Or.inr (Or.inr hf)))
    · exact Or.inl hf
  · obtain ⟨_, _, _, _, _, _, _, _, rfl⟩ := iterSpaceAfterUrl_next hnext
    exact Or.inl hf
  · obtain ⟨_, _, _, _, rfl⟩ := iterHeaderKey_next hnext
    exact Or.inl hf
  · obtain ⟨_, _, _, _, _, _, _, rfl⟩ := iterHeaderSpace_next hnext
    exact Or.inl hf
  · obtain ⟨token, _, _, hrest, _, _, _, rfl⟩ := iterHeaderValue_next hnext
    have hfield : headerFields (r.tookValue (r.fieldBytes r.curKey) token).headers =
        headerFields r.headers ++ [r.curKey, { start := r.cur, length := token.length }] :=
      ranges_push _ _
    rw [hfield, List.mem_append, List.mem_pair] at hf
    rcases hf with hf | hf | hf | hf | rfl | rfl
    · exact Or.inl (Or.inl hf)
    · exact Or.inl (Or.inr (Or.inl hf))
    · exact Or.inl (Or.inr (Or.inr (Or.inl hf)))
    · exact Or.inl (Or.inr (Or.inr (Or.inr hf)))
    · exact Or.inr hr.curKey
    · exact Or.inr (cur_add_length_le hr.cur hrest)
  · obtain ⟨_, _, _, _, _, _, _, rfl⟩ | ⟨_, _, rfl⟩ := iterHeaderLineBreak_next hnext
    · exact Or.inl hf
    · exact Or.inl hf
  · exact absurd (congrArg Prod.snd hnext) (iterContent_returns r)
  · simp at hnext
  · simp at hnext

theorem visits_ends {r s : HttpRequest} (hr : InRange r) (h : ∀ f ∈ r.ranges, f.stop ≤ r.size)
    (hvisits : Visits r s) : ∀ f ∈ s.ranges, f.stop ≤ s.size := by
  induction hvisits with
  | refl => exact h
  | @tail mid s hvisits hstep ih =>
    have hsize : s.size = mid.size := congrArg List.length hstep.data
    intro f hf
    rw [hsize]
    rcases next_ranges (hr.visits hvisits) hstep hf with hold | hnew
    · exact ih f hold
    · exact hnew

/-- The header that is recorded in front of the test ends inside the data. -/
theorem LongLength.ends {r : HttpRequest} {length : Nat} (h : LongLength r length)
    (hr : InRange r) (hends : ∀ f ∈ r.ranges, f.stop ≤ r.size) :
    ∀ f ∈ (r.pushedHeader length).ranges, f.stop ≤ r.size := by
  obtain ⟨token, c, tail, hrest, _, _, rfl⟩ := readHeaderValue_ok h.2.1
  have hfield : (r.pushedHeader token.length).ranges =
      r.ranges ++ [r.curKey, { start := r.cur, length := token.length }] := by
    show _ ++ headerFields (r.headers ++ [_]) = _
    rw [ranges_push, ← List.append_assoc]
    rfl
  intro f hf
  rw [hfield, List.mem_append, List.mem_pair] at hf
  rcases hf with hf | rfl | rfl
  · exact hends f hf
  · exact hr.curKey
  · exact cur_add_length_le hr.cur hrest

theorem ends_extend {r : HttpRequest} (h : ∀ f ∈ r.ranges, f.stop ≤ r.size) (e : Bytes) :
    ∀ f ∈ (r.extend e).ranges, f.stop ≤ (r.extend e).size := by
  have hsize : (r.extend e).size = r.size + e.length := List.length_append
  intro f hf
  rw [hsize]
  exact Nat.le_add_right_of_le (h f hf)

/-- An accepted URL has its terminator in the buffer. -/
theorem nul_mem_postParse {r : HttpRequest} (h : r.postParse.2.state = .finishOk) :
    0 ∈ r.postParse.2.urlBuffer := by
  unfold postParse at h ⊢
  cases hdecode : r.decodeUrl with
  | mk ok r' =>
    rw [hdecode] at h
    cases ok with
    | false => simp at h
    | true =>
      dsimp only at h ⊢
      by_cases hcheck : r'.checkUrl = true
      · rw [if_pos hcheck]
        exact nul_mem_decodeUrl hdecode
      · rw [if_neg hcheck] at h
        simp at h

theorem finish_other {x : ParseResult × HttpRequest} (h : x.1 ≠ .finishOk) : finish x = x := by
  obtain ⟨result, r⟩ := x
  cases result
  · exact absurd rfl h
  · rfl
  · rfl

theorem bounded_start (urlBuffer : Bytes) : Bounded { urlBuffer := urlBuffer } where
  inRange := inRange_start [] urlBuffer
  ends := fun f hf => (laid_start [] urlBuffer).ends f hf
  nul := fun h => by simp at h

theorem Bounded.call {r r' : HttpRequest} {e : Bytes} {result : ParseResult} (h : Bounded r)
    (hparse : Parses r (r.data ++ e) result r') : Bounded r' := by
  obtain ⟨last, ⟨answer, left⟩, hvisits, hlast, hfinish⟩ := parses_iff.mp hparse
  dsimp only at hlast
  have hrange : InRange last := (h.inRange.extend e).visits hvisits
  have hends : ∀ f ∈ last.ranges, f.stop ≤ last.size :=
    visits_ends (h.inRange.extend e) (ends_extend h.ends e) hvisits
  have hleft : InRange left := hrange.returns hlast
  have hposted : ∀ r : HttpRequest, InRange r → (∀ f ∈ r.ranges, f.stop ≤ r.size) →
      Bounded r.postParse.2 := by
    intro r hr hends
    obtain ⟨urlBuffer, state, heq, _⟩ := r.postParse_eq
    refine ⟨?_, ?_, nul_mem_postParse⟩
    · rw [heq]
      exact ⟨hr.cur, hr.curKey, hr.url⟩
    · rw [heq]
      exact hends
  have hr' : r' = (finish (answer, left)).2 := (congrArg Prod.snd hfinish).symm
  rw [hr']
  rcases iteration_leaves hlast with ⟨rfl, _⟩ | ⟨length, hlong, rfl, rfl⟩ | ⟨rfl, start, rfl⟩
  · by_cases hans : answer = .finishOk
    · rw [hans]
      exact hposted left hrange hends
    · rw [finish_other hans]
      refine ⟨hrange, hends, fun hstate => ?_⟩
      unfold iteration at hlast
      rw [show left.state = .finishOk from hstate] at hlast
      exact absurd (Option.some.inj (congrArg Prod.snd hlast)).symm hans
  · refine ⟨hleft, hlong.ends hrange hends, fun hstate => ?_⟩
    have hvalue : last.state = .finishOk := hstate
    rw [hlong.1] at hvalue
    simp at hvalue
  · exact hposted _ hleft hends

/-- Whatever the calls are, the positions stay inside the data. -/
theorem calls_bounded {r : HttpRequest} (h : Calls r) : Bounded r := by
  induction h with
  | start => exact bounded_start []
  | reset _ _ => exact bounded_start _
  | parse _ hparse ih => exact ih.call hparse

/-! ## Order -/

/-- The ranges follow each other, and unless the last header was refused they lie in front of the
position. -/
structure Ordered (r : HttpRequest) : Prop where
  order : (recorded r.ranges).Pairwise Field.Behind
  laid : ¬ Refused r → Laid r

theorem Laid.ordered {r : HttpRequest} (h : Laid r) : Ordered r := ⟨h.order, fun _ => h⟩

theorem Laid.extend {r : HttpRequest} (h : Laid r) (e : Bytes) : Laid (r.extend e) :=
  ⟨h.ends, h.order, h.blank, h.key⟩

/-- A finished or refused URL changes no range. -/
theorem Laid.posted {r : HttpRequest} (h : Laid r) : Laid r.postParse.2 := by
  obtain ⟨urlBuffer, state, heq, rfl | rfl⟩ := r.postParse_eq
  · rw [heq]
    exact ⟨h.ends, h.order, h.blank, h.key⟩
  · rw [heq]
    exact h.advance rfl (Nat.le_refl _) trivial not_false

theorem Ordered.call {r r' : HttpRequest} {e : Bytes} {result : ParseResult} (h : Ordered r)
    (hr : ¬ Refused r) (hparse : Parses r (r.data ++ e) result r') : Ordered r' := by
  obtain ⟨last, ⟨answer, left⟩, hvisits, hlast, hfinish⟩ := parses_iff.mp hparse
  dsimp only at hlast
  have hlaid : Laid last := ((h.laid hr).extend e).visits hvisits
  have hr' : r' = (finish (answer, left)).2 := (congrArg Prod.snd hfinish).symm
  rw [hr']
  rcases iteration_leaves hlast with ⟨rfl, _⟩ | ⟨length, hlong, rfl, rfl⟩ | ⟨rfl, start, rfl⟩
  · by_cases hans : answer = .finishOk
    · rw [hans]
      exact hlaid.posted.ordered
    · rw [finish_other hans]
      exact hlaid.ordered
  · have horder := (hlaid.pushed hlong.1 length).1
    refine ⟨?_, fun hclean => absurd hlong.pushedHeader hclean⟩
    show (recorded (_ ++ headerFields (last.headers ++ [_]))).Pairwise Field.Behind
    rw [ranges_push, ← List.append_assoc]
    exact horder
  · have hleft : Laid { last with contentStart := start, state := .finishOk } :=
      hlaid.advance rfl (Nat.le_refl _) trivial not_false
    exact hleft.posted.ordered

theorem cleanCalls_ordered {r : HttpRequest} (h : CleanCalls r) : Ordered r := by
  induction h with
  | start => exact (laid_start [] []).ordered
  | @reset r _ _ => exact (laid_start [] r.urlBuffer).ordered
  | parse _ hr hparse ih => exact ih.call hr hparse

theorem CleanCalls.calls {r : HttpRequest} (h : CleanCalls r) : Calls r := by
  induction h with
  | start => exact .start
  | reset _ ih => exact ih.reset
  | parse _ _ hparse ih => exact ih.parse hparse

/-! ## What a call goes through -/

theorem LongLength.iteration {r : HttpRequest} {length : Nat} (h : LongLength r length) :
    r.iteration = (r.pushedHeader length, some .finishInvalid) := by
  obtain ⟨hstate, hread, hname, hlong⟩ := h
  unfold HttpRequest.iteration
  rw [hstate]
  unfold iterHeaderValue
  dsimp only
  rw [hread]
  dsimp only
  rw [if_pos hname, if_pos hlong]
  rfl

theorem Bounded.extend_placed {r : HttpRequest} (h : Bounded r) (ho : Ordered r) (e : Bytes) :
    Placed (r.extend e) :=
  ⟨(h.inRange.extend e).cur, ends_extend h.ends e, ho.order⟩

/-- A call on a refused request goes through no other state; every other call keeps the ranges in
front of the position. -/
theorem Bounded.visited {r s : HttpRequest} (h : Bounded r) (ho : Ordered r) (e : Bytes)
    (hvisits : Visits (r.extend e) s) : Placed s := by
  by_cases hr : Refused r
  · obtain ⟨length, hlong⟩ := hr
    have hiter := iteration_returns_extend h.inRange hlong.iteration (by decide) e
    rw [visits_returned (by rw [hiter]) hvisits]
    exact h.extend_placed ho e
  · have hlaid : Laid s := ((ho.laid hr).extend e).visits hvisits
    have hrange := (h.inRange.extend e).visits hvisits
    exact ⟨hrange.cur, fun f hf => (hlaid.ends f hf).trans hrange.cur, hlaid.order⟩

/-- In every sequence of calls that leaves a refused request alone until it is reset, the ranges
follow each other inside the data, and no access leaves its buffer. -/
theorem cleanCalls_safe {r : HttpRequest} (h : CleanCalls r) : Safe r := by
  have hb := calls_bounded h.calls
  have ho := cleanCalls_ordered h
  refine ⟨⟨hb.inRange.cur, hb.ends, ho.order⟩, fun e s hvisits => hb.visited ho e hvisits, ?_, ?_⟩
  · intro fuel e
    exact parseFuelAt_eq (hb.inRange.extend e) fuel
  · exact isUrlPrefixAt_eq hb.nul

/-- `GET / H` with a header, cut behind `GET`. -/
theorem cleanCalls_safe_resumed : ∃ r, CleanCalls r ∧ r.state = .finishOk ∧ Safe r := by
  have hrun : ((parse {} (abbreviatedRequest.take 3)).bind (fun x =>
      (parse x.2 (x.2.data ++ abbreviatedRequest.drop 3)).map
        (fun y => (x.2.state, y.2.state)))) = some (.method, .finishOk) := by decide +kernel
  obtain ⟨⟨first, r⟩, hr, hrest⟩ := Option.bind_eq_some_iff.mp hrun
  obtain ⟨⟨second, s⟩, hs, hx⟩ := Option.map_eq_some_iff.mp hrest
  obtain ⟨hmethod, hfinished⟩ := Prod.mk.inj hx
  have hcut : CleanCalls r :=
    .parse .start (fun ⟨_, h⟩ => absurd h.1 (by decide)) (e := abbreviatedRequest.take 3) ⟨_, hr⟩
  have hclean : CleanCalls s :=
    hcut.parse (fun ⟨_, h⟩ => absurd (hmethod.symm.trans h.1) (by decide)) ⟨_, hs⟩
  exact ⟨s, hclean, hfinished, cleanCalls_safe hclean⟩

instance : DecidableRel Field.Behind := fun f g => inferInstanceAs (Decidable (f.stop ≤ g.start))

/-- `GET / H` with a Content-Length of 31 digits. -/
def longLengthRequest : Bytes :=
  [71, 69, 84, 32, 47, 32, 72, 13, 10] ++ contentLengthName ++ [58, 32] ++
    List.replicate 31 48 ++ [13, 10]

/-- Parsed twice, the header is there twice: its name at 9 and its value at 25. -/
theorem longLengthRequest_overlaps : ∃ r s,
    parse {} longLengthRequest = some (.finishInvalid, r) ∧
    parse r longLengthRequest = some (.finishInvalid, s) ∧ Calls s ∧
    s.headers = List.replicate 2
      { key := { start := 9, length := 14 }, value := { start := 25, length := 31 } } ∧
    ¬ Safe s := by
  have hrun : ((parse {} longLengthRequest).bind (fun x => (parse x.2 longLengthRequest).map
      (fun y => (x.1, x.2.data, y.1, y.2.headers,
        decide ((recorded y.2.ranges).Pairwise Field.Behind))))) =
      some (.finishInvalid, longLengthRequest, .finishInvalid, List.replicate 2
        { key := { start := 9, length := 14 }, value := { start := 25, length := 31 } }, false) := by
    decide +kernel
  obtain ⟨⟨first, r⟩, hr, hrest⟩ := Option.bind_eq_some_iff.mp hrun
  obtain ⟨⟨second, s⟩, hs, heq⟩ := Option.map_eq_some_iff.mp hrest
  obtain ⟨rfl, hdata, rfl, hheaders, hoverlap⟩ : first = .finishInvalid ∧
      r.data = longLengthRequest ∧ second = .finishInvalid ∧ s.headers = List.replicate 2
        { key := { start := 9, length := 14 }, value := { start := 25, length := 31 } } ∧
      decide ((recorded s.ranges).Pairwise Field.Behind) = false := by simpa using heq
  have hcalls : Calls r := .parse .start (e := longLengthRequest) ⟨_, hr⟩
  have hagain : Calls s := hcalls.parse (e := []) ⟨_, by rw [hdata, List.append_nil]; exact hs⟩
  exact ⟨r, s, hr, hs, hagain, hheaders,
    fun h => of_decide_eq_false hoverlap h.placed.order⟩

end HttpRequest
end EpollHttp
