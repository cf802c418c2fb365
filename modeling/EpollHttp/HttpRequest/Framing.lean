import EpollHttp.HttpRequest.ClosedHead

/-
Content-Length framing.

The parser records every header line it reads, takes each line whose name is an
abbreviation of Content-Length for the length of the body, and reads the value with `atoi`.
-/

namespace EpollHttp
namespace HttpRequest

open CString

/-! ## Recorded headers -/

/-- The recorded headers as bytes. -/
def headerBytes (r : HttpRequest) : List (Bytes × Bytes) :=
  r.headers.map (fun h => (r.fieldBytes h.key, r.fieldBytes h.value))

def HeaderLine.pair (l : HeaderLine) : Bytes × Bytes := (l.key, l.value)

theorem headerBytes_tookHeaderLine {r : HttpRequest} {l : HeaderLine} {back : Bytes}
    (hrest : r.rest = l.bytes ++ back) :
    (r.tookHeaderLine l).headerBytes = r.headerBytes ++ [l.pair] := by
  have hsplit : r.rest = l.key ++ (l.sep ++ (l.value ++ back)) := by
    rw [hrest, HeaderLine.bytes]
    simp
  have hsep : (r.tookKey l.key).rest = l.sep ++ (l.value ++ back) := rest_of_cur hsplit rfl rfl
  have hvalue : ((r.tookKey l.key).tookSep l.sep).rest = l.value ++ back :=
    rest_of_cur hsep rfl rfl
  show (r.headers ++ [_]).map _ = _
  rw [List.map_append]
  refine congrArg (r.headerBytes ++ ·) (congrArg (fun x => [x]) (Prod.ext ?_ ?_))
  · exact fieldBytes_at_cur hsplit
  · exact fieldBytes_at_cur hvalue

section
variable {data urlBuffer : Bytes}

theorem headerBytes_afterLines {l : RequestLine} {lines : List BrokenLine} {back : Bytes}
    (hdata : data = l.bytes ++ (linesBytes lines ++ back)) :
    (afterLines data urlBuffer l lines).headerBytes = lines.map (fun x => x.1.pair) := by
  induction lines using List.reverseRecOn generalizing back with
  | nil =>
    have hheaders : (afterTarget data urlBuffer l.target).headers = [] := by
      unfold afterTarget
      split <;> rfl
    show (afterTarget data urlBuffer l.target).headers.map _ = []
    rw [hheaders]
    rfl
  | append_singleton lines x ih =>
    have hsplit : data = l.bytes ++ (linesBytes lines ++ (x.1.bytes ++ (x.2 ++ back))) := by
      rw [hdata, linesBytes_append]
      simp [linesBytes]
    have hrest : (afterLines data urlBuffer l lines).rest = x.1.bytes ++ (x.2 ++ back) :=
      rest_of_split (by rw [List.append_assoc]; simpa using hsplit) (by simp)
    rw [afterLines_append, List.map_append]
    show ((afterLines data urlBuffer l lines).tookHeaderLine x.1).headerBytes = _
    rw [headerBytes_tookHeaderLine hrest, ih hsplit]
    rfl

theorem headerBytes_afterHead {h : Head} {back : Bytes} (hdata : data = h.bytes ++ back) :
    (afterHead data urlBuffer h).headerBytes = h.headerLines.map HeaderLine.pair := by
  have hsplit : data = h.requestLine.bytes ++ (linesBytes h.lines ++ (h.last.bytes ++ back)) := by
    rw [hdata, Head.bytes]
    simp
  have hrest : (afterLines data urlBuffer h.requestLine h.lines).rest = h.last.bytes ++ back :=
    rest_of_split (by rw [List.append_assoc]; simpa using hsplit) (by simp)
  unfold afterHead Head.headerLines
  rw [headerBytes_tookHeaderLine hrest, headerBytes_afterLines hsplit, List.map_append,
    List.map_map]
  rfl

end

/-! ## What the framing should be -/

/-- The full name, in any case. -/
def IsContentLength (name : Bytes) : Prop :=
  name.map toLower = contentLengthName.map toLower

instance (name : Bytes) : Decidable (IsContentLength name) :=
  inferInstanceAs (Decidable (_ = _))

/-- The value denotes a number that an `int` can hold. -/
def Readable (value : Bytes) : Prop := ∃ n, plainDecimal value = some n ∧ (n : Int) ≤ intMax

/-- What a Content-Length header promises about the answer of `parse(b, |b|)`. -/
structure Framing (b : Bytes) (result : ParseResult) (r : HttpRequest) : Prop where
  absent : result = .finishOk → (∀ h ∈ r.headerBytes, ¬ IsContentLength h.1) →
    r.contentLength = 0
  present : result = .finishOk → ∀ h ∈ r.headerBytes, IsContentLength h.1 →
    ∃ n : Nat, plainDecimal h.2 = some n ∧ r.contentLength = n ∧ r.contentStart + n ≤ b.length
  refused : ∀ h ∈ r.headerBytes, IsContentLength h.1 → ¬ Readable h.2 →
    result = .finishInvalid

/-- The lines agree on one length: every full name denotes it, it is 0 without one, and
the last line that is taken for Content-Length, abbreviated or not, reads as it. -/
def WellFramed (lines : List HeaderLine) : Prop :=
  ∃ n : Nat, (n : Int) ≤ intMax ∧
    (∀ l ∈ lines, IsContentLength l.key → plainDecimal l.value = some n) ∧
    ((∀ l ∈ lines, ¬ IsContentLength l.key) → n = 0) ∧
    ∀ m, (lines.filter (fun l => namesContentLength l.key)).getLast? = some m → atoi m.value = n

/-- A header line that is not finished yet. -/
inductive OpenHeader : Bytes → Prop
  | key (key : Bytes) (hkey : ∀ c ∈ key, readHeaderKeySymbols c = true) : OpenHeader key
  | sep (key sep : Bytes) (hkey : ∀ c ∈ key, readHeaderKeySymbols c = true)
      (hhead : sep.head? = some colon) (hsep : ∀ c ∈ sep, isHeaderSpace c = true) :
      OpenHeader (key ++ sep)
  | value (key sep : Bytes) (c : UInt8) (value : Bytes)
      (hkey : ∀ c ∈ key, readHeaderKeySymbols c = true) (hhead : sep.head? = some colon)
      (hsep : ∀ c ∈ sep, isHeaderSpace c = true) (hc : isHeaderSpace c = false)
      (hvalue : ∀ x ∈ c :: value, isBreak x = false) : OpenHeader (key ++ (sep ++ c :: value))

/-- The bytes begin a request that is not complete, and `lines` are its complete header
lines. -/
inductive Waits (b : Bytes) : List HeaderLine → Prop
  | inLine (l : RequestLine) (lines : List BrokenLine) (e : Bytes)
      (hdata : b = l.bytes ++ (linesBytes lines ++ e)) (hl : l.WellFormed)
      (hlines : ∀ x ∈ lines, x.1.WellFormed ∧ IsLineBreak x.2) (hne : e ≠ [])
      (he : OpenHeader e) : Waits b (lines.map Prod.fst)
  | atBreak (h : Head) (run : Bytes) (hdata : b = h.bytes ++ run) (hh : h.WellFormed)
      (hrun : IsLineBreak run) : Waits b h.headerLines
  | inBody (h : Head) (closing body : Bytes) (hh : ClosedHead b h closing body)
      (hne : h.contentLength ≠ 0) (hshort : ¬ h.contentLength ≤ (body.length : Int)) :
      Waits b h.headerLines

/-- The bytes are a request with its whole body. -/
structure Accepted (b : Bytes) (h : Head) (closing body : Bytes) : Prop where
  closed : ClosedHead b h closing body
  url : urlAccepted h.requestLine.target.url = true
  room : h.contentLength ≤ (body.length : Int)

/-! ## Complete requests -/

theorem finish_finishOk {x : ParseResult × HttpRequest} {r : HttpRequest}
    (h : finish x = (.finishOk, r)) : x.1 = .finishOk ∧ x.2.postParse = (.finishOk, r) := by
  obtain ⟨result, r'⟩ := x
  cases result with
  | finishOk => exact ⟨rfl, h⟩
  | finishInvalid => exact absurd (congrArg Prod.fst h) (by simp [finish])
  | needMoreData => exact absurd (congrArg Prod.fst h) (by simp [finish])

/-- What the parser reports of a complete request. -/
theorem parse_accepted {b closing body : Bytes} {h : Head} {result : ParseResult}
    {r : HttpRequest} (ha : Accepted b h closing body) (hparse : parse {} b = some (result, r)) :
    result = .finishOk ∧ r.headerBytes = h.headerLines.map HeaderLine.pair ∧
      r.contentLength = h.contentLength ∧ (r.contentStart : Int) + h.contentLength ≤ b.length := by
  obtain ⟨hh, hurl, hroom⟩ := ha
  -- Both ways to finish leave the head's ranges and a position of the body in range.
  have hend : ∀ (p : HttpRequest), p.state = .finishOk → p.urlBytes = h.requestLine.target.url →
      p.urlStart + p.urlLength ≤ p.size → finish (.finishOk, p) = (result, r) →
      p.headerBytes = h.headerLines.map HeaderLine.pair → p.contentLength = h.contentLength →
      (p.contentStart : Int) + h.contentLength ≤ b.length →
      result = .finishOk ∧ r.headerBytes = h.headerLines.map HeaderLine.pair ∧
        r.contentLength = h.contentLength ∧
        (r.contentStart : Int) + h.contentLength ≤ b.length := by
    intro p hstate hbytes hrange hfin hheaders hlength hstart
    obtain ⟨urlBuffer, hpost, _⟩ := postParse_accepted hstate hrange (by rw [hbytes]; exact hurl)
    have heq : (ParseResult.finishOk, { p with urlBuffer := urlBuffer }) = (result, r) := by
      rw [← hpost, ← hfin]
      rfl
    obtain ⟨rfl, rfl⟩ := Prod.mk.inj heq
    exact ⟨rfl, hheaders, hlength, hstart⟩
  have hlen : b.length = h.bytes.length + (closing.length + body.length) := by
    rw [hh.data_eq]
    simp
  by_cases hzero : h.contentLength = 0
  · obtain ⟨z, ⟨s, hs, hz⟩, hfin⟩ := parse_outcome hparse
    have hzeq := (outcome_unique (x := (.finishOk, _)) hh.visits (hh.finishes hzero) hs hz).2
    rw [← hzeq] at hfin
    have hcontentStart : (afterHead b [] h).contentStart = 0 := by
      have htarget : (afterTarget b [] h.requestLine.target).contentStart = 0 := by
        unfold afterTarget
        split <;> rfl
      have hlines : ∀ lines, (afterLines b [] h.requestLine lines).contentStart = 0 := by
        intro lines
        induction lines using List.reverseRecOn with
        | nil => exact htarget
        | append_singleton lines x ih =>
          rw [afterLines_append]
          exact ih
      exact hlines h.lines
    refine hend { afterHead b [] h with state := .finishOk } rfl
      (afterHead_urlBytes hh.data_eq) ?_ hfin
      (headerBytes_afterHead hh.data_eq) (afterHead_contentLength b [] h) ?_
    · exact atContent_inRange hh.data_eq 0
    · show ((afterHead b [] h).contentStart : Int) + h.contentLength ≤ b.length
      rw [hcontentStart, hzero]
      omega
  · have hfin := (parse_closedHead hh hzero hparse).1 hroom
    refine hend _ rfl (atContent_urlBytes hh.data_eq _) (atContent_inRange hh.data_eq _) hfin.symm
      (headerBytes_afterHead hh.data_eq) (afterHead_contentLength b [] h) ?_
    show ((h.bytes.length + closing.length : Nat) : Int) + h.contentLength ≤ b.length
    omega

/-- The round that finishes a request without a body stands at a closing run. -/
theorem iterHeaderLineBreak_finishOk {r r' : HttpRequest}
    (h : r.iterHeaderLineBreak = (r', some .finishOk)) :
    1 < lineBreakCounter (r.rest.takeWhile isBreak) ∧ r.contentLength = 0 := by
  unfold iterHeaderLineBreak at h
  split at h
  · simp at h
  · rename_i length hread
    have hend := readHeaderLineBreak_endOfHeaders hread
    split at h
    · rename_i hzero
      exact ⟨hend.1, hzero⟩
    · simp at h
  · simp at h
  · simp at h

/-- A line-break run with two line feeds closes the head in front of it. -/
theorem closedHead_of_run {data back : Bytes} {h : Head} (hdata : data = h.bytes ++ back)
    (hh : h.WellFormed) (htwo : 1 < lineBreakCounter (back.takeWhile isBreak)) :
    ClosedHead data h (back.takeWhile isBreak) (back.dropWhile isBreak) := by
  refine ⟨?_, hh, ⟨fun c hc => Scan.token_class hc, htwo⟩, ?_⟩
  · rw [List.takeWhile_append_dropWhile]
    exact hdata
  · intro c hc
    cases hbody : back.dropWhile isBreak with
    | nil => rw [hbody] at hc; simp at hc
    | cons d body =>
      rw [hbody] at hc
      rw [← Option.some.inj hc]
      exact Scan.stop_not hbody

/-- Only complete requests are finished. -/
theorem accepted_of_parse {b : Bytes} {r : HttpRequest}
    (hparse : parse {} b = some (.finishOk, r)) :
    ∃ h closing body, Accepted b h closing body := by
  obtain ⟨z, ⟨last, hv, hz⟩, hfin⟩ := parse_outcome hparse
  obtain ⟨hok, hpost⟩ := finish_finishOk hfin
  rw [hok] at hz
  have hrange : InRange last := (inRange_start b []).visits hv
  have hurlOk : ∀ p : HttpRequest, z.2 = p → p.state = .finishOk →
      p.urlStart + p.urlLength ≤ p.size → urlAccepted p.urlBytes = true := by
    intro p hp hstate hle
    have hres := postParse_result hstate hle
    rw [← hp, hpost] at hres
    by_contra hno
    rw [hp, if_neg hno] at hres
    simp at hres
  rcases iteration_returns hz with ⟨_, hstate⟩ | ⟨_, h, _⟩ | ⟨_, hstate, hzero, hleft⟩ |
    ⟨_, hstate, hroom, hleft⟩
  · have hfinished := hstate rfl
    cases visits_shape hv
    all_goals simp [startState, tookMethod, tookUrl, afterSpaces, tookSpaces, tookKey, tookSep,
      tookClosing] at hfinished
  · simp at h
  · have hurl := hurlOk _ hleft rfl hrange.url
    have hiter : last.iterHeaderLineBreak = (z.2, some .finishOk) := by
      unfold iteration at hz
      rwa [hstate] at hz
    obtain ⟨htwo, _⟩ := iterHeaderLineBreak_finishOk hiter
    cases visits_shape hv with
    | headerLineBreak h c tail hdata hh hc =>
      rw [rest_afterHead hdata] at htwo
      refine ⟨h, _, _, closedHead_of_run hdata hh htwo, ?_, ?_⟩
      · rw [← show (afterHead b [] h).urlBytes = _ from afterHead_urlBytes hdata]
        exact hurl
      · rw [← afterHead_contentLength b [] h, hzero]
        exact Int.natCast_nonneg _
    | _ =>
      simp [startState, tookMethod, tookUrl, afterSpaces, tookSpaces, tookKey, tookSep,
        tookClosing] at hstate
  · have hurl := hurlOk _ hleft rfl hrange.url
    obtain ⟨h, closing, body, hh, hne, rfl⟩ := atBody_of_content hv hstate
    refine ⟨h, closing, body, hh, ?_, ?_⟩
    · rw [← show (atBody b h closing).urlBytes = _ from atBody_urlBytes hh.data_eq]
      exact hurl
    · have hsize : (atBody b h closing).size =
          h.bytes.length + (closing.length + body.length) := by
        unfold size
        rw [show (atBody b h closing).data = b from afterHead_data b [] h, hh.data_eq]
        simp
      rw [atBody_contentLength, atBody_cur, hsize] at hroom
      omega

/-! ## Requests that are not complete -/

/-- A scan that asks for more data saw symbols of its class only. -/
theorem scan_needMoreData {skip : UInt8 → Bool} {stop : UInt8 → Nat → ReadResult} {rest : Bytes}
    (hstop : ∀ c i, stop c i ≠ .needMoreData) (h : scan skip stop rest = .needMoreData) :
    ∀ x ∈ rest, skip x = true := by
  unfold scan at h
  split at h
  · rename_i hnil
    exact Scan.dropWhile_nil_iff.mp hnil
  · exact absurd h (hstop _ _)

theorem needMoreData_of_visits {b : Bytes} {s : HttpRequest} {y : ParseResult × HttpRequest}
    (hv : Visits (startState b []) s) (hs : s.iteration = (s, some .needMoreData))
    (hparse : parse {} b = some y) : y = (.needMoreData, s) := by
  obtain ⟨z, ⟨last, hlast, hz⟩, hfin⟩ := parse_outcome hparse
  rw [← hfin, ← (outcome_unique (x := (.needMoreData, s)) hv hs hlast hz).2]
  rfl

theorem OpenHeader.head {e : Bytes} (he : OpenHeader e) (hne : e ≠ []) :
    ∃ c tail, e = c :: tail ∧ isBreak c = false := by
  have hcons : ∀ {key sep : Bytes} (more : Bytes), (∀ c ∈ key, readHeaderKeySymbols c = true) →
      sep.head? = some colon →
      ∃ c tail, key ++ (sep ++ more) = c :: tail ∧ isBreak c = false := by
    intro key sep more hkey hhead
    obtain ⟨sep', rfl⟩ := List.head?_eq_some_iff.mp hhead
    cases key with
    | nil => exact ⟨colon, sep' ++ more, rfl, rfl⟩
    | cons c key =>
      exact ⟨c, key ++ ((colon :: sep') ++ more), rfl,
        readHeaderKeySymbols_visible (hkey c (by simp))⟩
  cases he with
  | key key hkey =>
    obtain ⟨c, tail, rfl⟩ := List.exists_cons_of_ne_nil hne
    exact ⟨c, tail, rfl, readHeaderKeySymbols_visible (hkey c (by simp))⟩
  | sep key sep hkey hhead _ =>
    obtain ⟨c, tail, heq, hc⟩ := hcons [] hkey hhead
    exact ⟨c, tail, by rw [← heq, List.append_nil], hc⟩
  | value key sep c value hkey hhead _ _ _ => exact hcons (c :: value) hkey hhead

/-- Behind complete lines the parser waits inside the open header line. -/
theorem OpenHeader.waits {r : HttpRequest} {e : Bytes} (he : OpenHeader e)
    (hstate : r.state = .headerKey) (hrest : r.rest = e) :
    ∃ s, Visits r s ∧ s.iteration = (s, some .needMoreData) ∧ s.headerBytes = r.headerBytes := by
  cases he with
  | key key hkey =>
    refine ⟨r, Relation.ReflTransGen.refl, ?_, rfl⟩
    have hread : r.readHeaderKey = .needMoreData := by
      unfold readHeaderKey
      rw [hrest]
      exact scan_end hkey
    unfold iteration iterHeaderKey
    rw [hstate, hread]
  | sep key sep hkey hhead hsep =>
    obtain ⟨sep', rfl⟩ := List.head?_eq_some_iff.mp hhead
    refine ⟨r.tookKey key, Relation.ReflTransGen.single (next_headerKey hstate hrest hkey), ?_, rfl⟩
    have hsepRest : (r.tookKey key).rest = colon :: sep' := rest_of_cur hrest rfl rfl
    have hread : (r.tookKey key).readHeaderSpace = .needMoreData := by
      unfold readHeaderSpace
      rw [hsepRest]
      exact scan_end hsep
    unfold iteration iterHeaderSpace
    rw [show (r.tookKey key).state = .headerSpace from rfl, hread]
  | value key sep c value hkey hhead hsep hc hvalue =>
    obtain ⟨sep', rfl⟩ := List.head?_eq_some_iff.mp hhead
    have hkeyNext : Next r (r.tookKey key) := next_headerKey hstate hrest hkey
    have hsepRest : (r.tookKey key).rest = (colon :: sep') ++ c :: value :=
      rest_of_cur hrest rfl rfl
    have hsepNext : Next (r.tookKey key) ((r.tookKey key).tookSep (colon :: sep')) :=
      next_headerSpace rfl hsepRest hsep hc (hvalue c (by simp))
    refine ⟨_, (Relation.ReflTransGen.single hkeyNext).tail hsepNext, ?_, rfl⟩
    have hvalueRest : ((r.tookKey key).tookSep (colon :: sep')).rest = c :: value :=
      rest_of_cur hsepRest rfl rfl
    have hread : ((r.tookKey key).tookSep (colon :: sep')).readHeaderValue = .needMoreData := by
      unfold readHeaderValue
      rw [hvalueRest]
      exact scan_end (by simpa using hvalue)
    unfold iteration iterHeaderValue
    rw [show ((r.tookKey key).tookSep (colon :: sep')).state = .headerValue from rfl, hread]

/-- What the parser reports of a request that is not complete. -/
theorem parse_waits {b : Bytes} {lines : List HeaderLine} {result : ParseResult}
    {r : HttpRequest} (hw : Waits b lines) (hparse : parse {} b = some (result, r)) :
    result = .needMoreData ∧ r.headerBytes = lines.map HeaderLine.pair := by
  cases hw with
  | inLine l lines e hdata hl hlines hne he =>
    obtain ⟨c, tail, hcons, hc⟩ := he.head hne
    have hv : Visits (startState b []) (afterLines b [] l lines) :=
      visits_afterLines (by rw [hdata, hcons]) hl hlines hc
    have hrest : (afterLines b [] l lines).rest = e :=
      rest_of_split (by rw [List.append_assoc]; simpa using hdata) (by simp)
    obtain ⟨s, hs, hreturns, hheaders⟩ := he.waits (afterLines_state b [] l lines) hrest
    obtain ⟨rfl, rfl⟩ := Prod.mk.inj (needMoreData_of_visits (hv.trans hs) hreturns hparse)
    refine ⟨rfl, ?_⟩
    rw [hheaders, headerBytes_afterLines hdata, List.map_map]
    rfl
  | atBreak h run hdata hh hrun =>
    obtain ⟨d, run', hcons, hd⟩ := hrun.cons
    have hv : Visits (startState b []) (afterHead b [] h) :=
      visits_afterHead (by rw [hdata, hcons]) hh hd
    have hreturns : (afterHead b [] h).iteration = (afterHead b [] h, some .needMoreData) := by
      have hread : (afterHead b [] h).readHeaderLineBreak = .needMoreData := by
        unfold readHeaderLineBreak
        rw [rest_afterHead hdata, Scan.takeWhile_all hrun.breaks,
          if_neg (Nat.not_lt.mpr hrun.one)]
        exact scan_end hrun.breaks
      unfold iteration iterHeaderLineBreak
      rw [afterHead_state, hread]
    obtain ⟨rfl, rfl⟩ := Prod.mk.inj (needMoreData_of_visits hv hreturns hparse)
    exact ⟨rfl, headerBytes_afterHead hdata⟩
  | inBody h closing body hh hne hshort =>
    obtain ⟨rfl, rfl⟩ := Prod.mk.inj ((parse_closedHead hh hne hparse).2 hshort)
    exact ⟨rfl, headerBytes_afterHead hh.data_eq⟩

/-- A request that waits for more data has recorded its complete lines. -/
theorem waits_of_parse {b : Bytes} {r : HttpRequest}
    (hparse : parse {} b = some (.needMoreData, r)) :
    r.headerBytes = [] ∨
      ∃ lines, Waits b lines ∧ r.headerBytes = lines.map HeaderLine.pair := by
  obtain ⟨z, ⟨last, hv, hz⟩, hfin⟩ := parse_outcome hparse
  have hmore : z.1 = .needMoreData := (finish_needMoreData z).mp (by rw [hfin])
  have hr : r = last := by
    rw [finish_of_ne (by rw [hmore]; decide)] at hfin
    rcases iteration_returns hz with ⟨heq, _⟩ | ⟨_, h, _⟩ | ⟨h, _⟩ | ⟨h, _⟩
    · rw [← heq, hfin]
    · rw [hmore] at h; simp at h
    · rw [hmore] at h; simp at h
    · rw [hmore] at h; simp at h
  rw [hmore] at hz
  subst hr
  cases visits_shape hv with
  | method => exact Or.inl rfl
  | spaceAfterMethod _ _ _ _ => exact Or.inl rfl
  | url _ _ _ _ _ _ _ _ _ => exact Or.inl rfl
  | urlParameters _ _ _ _ _ _ _ => exact Or.inl rfl
  | spaceAfterUrl t _ _ _ =>
    left
    unfold headerBytes afterTarget
    split <;> rfl
  | headerKey l lines c tail hdata hl hlines hc =>
    right
    have hrest : (afterLines b [] l lines).rest = c :: tail :=
      rest_of_split (by rw [List.append_assoc]; simpa using hdata) (by simp)
    refine ⟨_, Waits.inLine l lines (c :: tail) hdata hl hlines (by simp)
      (OpenHeader.key _ ?_), ?_⟩
    · have hread : (afterLines b [] l lines).readHeaderKey = .needMoreData := by
        unfold iteration iterHeaderKey at hz
        rw [show (afterLines b [] l lines).state = .headerKey from afterLines_state b [] l lines]
          at hz
        dsimp only at hz
        split at hz <;> simp_all
      rw [← hrest]
      refine scan_needMoreData (fun c i => ?_) hread
      split <;> simp
    · rw [headerBytes_afterLines hdata, List.map_map]
      rfl
  | headerSpace l lines key tail hdata hl hlines hkey =>
    right
    have hrest : ((afterLines b [] l lines).tookKey key).rest = colon :: tail :=
      rest_of_split (show _ = (l.bytes ++ (linesBytes lines ++ key)) ++ colon :: tail by
        simp [tookKey, hdata]) (by simp [tookKey]; omega)
    have hread : ((afterLines b [] l lines).tookKey key).readHeaderSpace = .needMoreData := by
      unfold iteration iterHeaderSpace at hz
      rw [show ((afterLines b [] l lines).tookKey key).state = .headerSpace from rfl] at hz
      dsimp only at hz
      split at hz <;> simp_all
    refine ⟨_, Waits.inLine l lines (key ++ colon :: tail) hdata hl hlines (by simp)
      (OpenHeader.sep key (colon :: tail) hkey rfl ?_), ?_⟩
    · rw [← hrest]
      refine scan_needMoreData (fun c i => ?_) hread
      split <;> simp
    · show (afterLines b [] l lines).headerBytes = _
      rw [headerBytes_afterLines hdata, List.map_map]
      rfl
  | headerValue l lines key sep c tail hdata hl hlines hkey hhead hsep hc hbreak =>
    right
    have hrest : (((afterLines b [] l lines).tookKey key).tookSep sep).rest = c :: tail :=
      rest_of_split (show _ = (l.bytes ++ (linesBytes lines ++ (key ++ sep))) ++ c :: tail by
        simp [tookKey, tookSep, hdata]) (by simp [tookKey, tookSep]; omega)
    have hread : (((afterLines b [] l lines).tookKey key).tookSep sep).readHeaderValue =
        .needMoreData := by
      unfold iteration iterHeaderValue at hz
      rw [show (((afterLines b [] l lines).tookKey key).tookSep sep).state = .headerValue from rfl]
        at hz
      dsimp only at hz
      split at hz
      · split at hz
        · split at hz <;> simp at hz
        · simp at hz
      · assumption
      · simp at hz
    have hvalue : ∀ x ∈ c :: tail, (!isBreak x) = true := by
      rw [← hrest]
      exact scan_needMoreData (fun c i => by simp) hread
    refine ⟨_, Waits.inLine l lines (key ++ (sep ++ c :: tail)) hdata hl hlines (by simp)
      (OpenHeader.value key sep c tail hkey hhead hsep hc (by simpa using hvalue)), ?_⟩
    show (afterLines b [] l lines).headerBytes = _
    rw [headerBytes_afterLines hdata, List.map_map]
    rfl
  | headerLineBreak h c tail hdata hh hc =>
    right
    refine ⟨_, Waits.atBreak h (c :: tail) hdata hh ?_, headerBytes_afterHead hdata⟩
    have hread : (afterHead b [] h).readHeaderLineBreak = .needMoreData := by
      unfold iteration iterHeaderLineBreak at hz
      rw [show (afterHead b [] h).state = .headerLineBreak from rfl] at hz
      dsimp only at hz
      split at hz
      · simp at hz
      · split at hz <;> simp at hz
      · assumption
      · simp at hz
    unfold readHeaderLineBreak at hread
    rw [rest_afterHead hdata] at hread
    split at hread
    · simp at hread
    · rename_i hone
      have hall := scan_needMoreData (fun c i => by simp) hread
      rw [Scan.takeWhile_all hall] at hone
      exact ⟨by simp, hall, Nat.le_of_not_lt hone⟩
  | content h closing body hh hne =>
    right
    rw [afterHead_contentLength] at hne
    refine ⟨_, Waits.inBody h closing body hh hne (fun hroom => ?_),
      headerBytes_afterHead hh.data_eq⟩
    have hclosed := (parse_closedHead hh hne hparse).1 hroom
    have hverdict := congrArg Prod.fst hclosed
    exact postParse_ne_needMoreData _ hverdict.symm

/-! ## The length the parser takes -/

/-- The last line that is taken for Content-Length sets the length. -/
theorem foldl_declaredLength (lines : List HeaderLine) :
    lines.foldl Head.declaredLength 0 =
      match (lines.filter (fun l => namesContentLength l.key)).getLast? with
      | some m => atoi m.value
      | none => 0 := by
  induction lines using List.reverseRecOn with
  | nil => rfl
  | append_singleton lines l ih =>
    rw [List.foldl_append, List.filter_append]
    show Head.declaredLength (lines.foldl Head.declaredLength 0) l = _
    unfold Head.declaredLength
    by_cases hname : namesContentLength l.key = true
    · simp [hname]
    · rw [if_neg hname]
      simp only [List.filter_cons, if_neg hname, List.filter_nil, List.append_nil]
      exact ih

/-- The full name is taken for Content-Length. -/
theorem namesContentLength_full {name : Bytes} (h : IsContentLength name) :
    namesContentLength name = true := by
  have hnul : 0 ∉ name := by
    intro h0
    have hmem : toLower 0 ∈ contentLengthName.map toLower := h ▸ List.mem_map_of_mem h0
    revert hmem
    decide
  exact (strncaseEq_iff hnul).mpr (h ▸ List.prefix_rfl)

theorem readable_of_length {value : Bytes} {n : Nat} {l : Int} (h : plainDecimal value = some n)
    (hl : l = n) (hmax : l ≤ intMax) : Readable value :=
  ⟨n, h, hl ▸ hmax⟩

theorem contentLength_le (h : Head) : h.contentLength ≤ intMax := by
  unfold Head.contentLength
  rw [foldl_declaredLength]
  split
  · exact atoi_le _
  · decide

/-- The framing of a complete request is right exactly when its lines agree. -/
theorem wellFramed_iff (h : Head) :
    WellFramed h.headerLines ↔
      ((∀ l ∈ h.headerLines, ¬ IsContentLength l.key) → h.contentLength = 0) ∧
        ∀ l ∈ h.headerLines, IsContentLength l.key →
          ∃ n : Nat, plainDecimal l.value = some n ∧ h.contentLength = n := by
  have hfold : h.contentLength = _ := foldl_declaredLength h.headerLines
  constructor
  · rintro ⟨n, hmax, hfull, hnone, hlast⟩
    have hlength : h.contentLength = n := by
      rw [hfold]
      split
      · rename_i m hm
        exact hlast m hm
      · rename_i hm
        have hempty : h.headerLines.filter (fun l => namesContentLength l.key) = [] :=
          List.getLast?_eq_none_iff.mp hm
        rw [hnone (fun l hl hname => ?_)]
        · rfl
        · have hmem := (List.mem_filter (p := fun l : HeaderLine => namesContentLength l.key)).mpr
            ⟨hl, namesContentLength_full hname⟩
          rw [hempty] at hmem
          simp at hmem
    exact ⟨fun habsent => by rw [hlength, hnone habsent]; rfl,
      fun l hl hname => ⟨n, hfull l hl hname, hlength⟩⟩
  · rintro ⟨habsent, hpresent⟩
    have hlast : ∀ m, (h.headerLines.filter (fun l => namesContentLength l.key)).getLast? =
        some m → atoi m.value = h.contentLength := by
      intro m hm
      rw [hfold, hm]
    by_cases hfull : ∃ l ∈ h.headerLines, IsContentLength l.key
    · obtain ⟨l, hl, hname⟩ := hfull
      obtain ⟨n, _, hn⟩ := hpresent l hl hname
      refine ⟨n, hn ▸ contentLength_le h, fun k hk hkname => ?_,
        fun hno => absurd hname (hno l hl), fun m hm => (hlast m hm).trans hn⟩
      obtain ⟨k', hk', hlen⟩ := hpresent k hk hkname
      rw [hk']
      exact congrArg some (Int.ofNat.inj (hlen.symm.trans hn))
    · have hno : ∀ l ∈ h.headerLines, ¬ IsContentLength l.key :=
        fun l hl hname => hfull ⟨l, hl, hname⟩
      exact ⟨0, by decide, fun l hl hname => absurd hname (hno l hl), fun _ => rfl,
        fun m hm => (hlast m hm).trans (habsent hno)⟩

/-- Lines that give their length by the full name, and all the same one, are well framed. -/
theorem wellFramed_of_full {lines : List HeaderLine} {n : Nat} (hmax : (n : Int) ≤ intMax)
    (hpresent : ∃ l ∈ lines, IsContentLength l.key)
    (hfull : ∀ l ∈ lines, namesContentLength l.key = true →
      IsContentLength l.key ∧ plainDecimal l.value = some n) : WellFramed lines := by
  refine ⟨n, hmax, fun l hl hname => (hfull l hl (namesContentLength_full hname)).2,
    fun habsent => ?_, fun m hm => ?_⟩
  · obtain ⟨l, hl, hname⟩ := hpresent
    exact absurd hname (habsent l hl)
  · obtain ⟨hin, hnames⟩ := List.mem_filter.mp (List.mem_of_getLast? hm)
    exact atoi_plainDecimal (hfull m hin hnames).2 hmax

/-! ## Framing -/

/-- The header lines that stand in `b` promise what the parser reports: a complete request is
well framed, and in front of its end every full-named value is readable. -/
structure FramedInput (b : Bytes) : Prop where
  complete : ∀ h closing body, Accepted b h closing body → WellFramed h.headerLines
  waiting : ∀ lines, Waits b lines → ∀ l ∈ lines, IsContentLength l.key → Readable l.value

/-- What a fresh request answers to `b` is framed right exactly when the header lines in `b`
are. -/
theorem parse_framing_iff {b : Bytes} {result : ParseResult} {r : HttpRequest}
    (hparse : parse {} b = some (result, r)) : Framing b result r ↔ FramedInput b := by
  constructor
  · rintro ⟨habsent, hpresent, hrefused⟩
    constructor
    · intro h closing body ha
      obtain ⟨hok, hheaders, hlength, _⟩ := parse_accepted ha hparse
      refine (wellFramed_iff h).mpr ⟨fun hno => ?_, fun l hl hname => ?_⟩
      · rw [← hlength]
        refine habsent hok (fun x hx => ?_)
        rw [hheaders] at hx
        obtain ⟨l, hl, rfl⟩ := List.mem_map.mp hx
        exact hno l hl
      · obtain ⟨n, hn, hlen, _⟩ := hpresent hok l.pair
          (by rw [hheaders]; exact List.mem_map_of_mem hl) hname
        exact ⟨n, hn, hlength ▸ hlen⟩
    · intro lines hw l hl hname
      obtain ⟨hmore, hheaders⟩ := parse_waits hw hparse
      by_contra hread
      have hinvalid := hrefused l.pair (by rw [hheaders]; exact List.mem_map_of_mem hl) hname hread
      rw [hmore] at hinvalid
      simp at hinvalid
  · rintro ⟨hcomplete, hwaiting⟩
    cases result with
    | finishOk =>
      obtain ⟨h, closing, body, ha⟩ := accepted_of_parse hparse
      obtain ⟨_, hheaders, hlength, hend⟩ := parse_accepted ha hparse
      obtain ⟨habsent, hpresent⟩ := (wellFramed_iff h).mp (hcomplete h closing body ha)
      have hvalue : ∀ x ∈ r.headerBytes, IsContentLength x.1 →
          ∃ n : Nat, plainDecimal x.2 = some n ∧ r.contentLength = n := by
        intro x hx hname
        rw [hheaders] at hx
        obtain ⟨l, hl, rfl⟩ := List.mem_map.mp hx
        rw [hlength]
        exact hpresent l hl hname
      refine ⟨fun _ hno => ?_, fun _ x hx hname => ?_, fun x hx hname hread => ?_⟩
      · rw [hlength]
        refine habsent (fun l hl => hno l.pair ?_)
        rw [hheaders]
        exact List.mem_map_of_mem hl
      · obtain ⟨n, hn, hlen⟩ := hvalue x hx hname
        exact ⟨n, hn, hlen, by omega⟩
      · obtain ⟨n, hn, hlen⟩ := hvalue x hx hname
        have hmax := contentLength_le h
        exact absurd (readable_of_length hn hlen (hlength ▸ hmax)) hread
    | finishInvalid =>
      exact ⟨fun h => by simp at h, fun h => by simp at h, fun _ _ _ _ => rfl⟩
    | needMoreData =>
      refine ⟨fun h => by simp at h, fun h => by simp at h, fun x hx hname hread => ?_⟩
      exfalso
      rcases waits_of_parse hparse with hnil | ⟨lines, hw, hheaders⟩
      · rw [hnil] at hx
        simp at hx
      · rw [hheaders] at hx
        obtain ⟨l, hl, rfl⟩ := List.mem_map.mp hx
        exact hread (hwaiting lines hw l hl hname)

/-- `GET /a H`, `Content-Length:-1` and the empty line. -/
def negativeLength : Bytes :=
  [71, 69, 84, 32, 47, 97, 32, 72, 13, 10, 67, 111, 110, 116, 101, 110, 116, 45, 76, 101,
   110, 103, 116, 104, 58, 45, 49, 13, 10, 13, 10]

theorem parse_framing_iff_negativeLength :
    ∃ x, parse {} negativeLength = some x ∧
      (Framing negativeLength x.1 x.2 ↔ FramedInput negativeLength) := by
  have hparse : (parse {} negativeLength).isSome = true := by decide +kernel
  obtain ⟨x, hx⟩ := Option.isSome_iff_exists.mp hparse
  exact ⟨x, hx, parse_framing_iff hx⟩

/-- A negative length finishes the request. -/
theorem negativeLength_finishes :
    ∃ r, parse {} negativeLength = some (.finishOk, r) ∧ r.contentLength = -1 ∧
      ¬ Framing negativeLength .finishOk r := by
  have hparse : (parse {} negativeLength).map (fun x => (x.1, x.2.contentLength, x.2.headerBytes)) =
      some (.finishOk, -1, [(contentLengthName, [45, 49])]) := by decide +kernel
  obtain ⟨⟨result, r⟩, hx, heq⟩ := Option.map_eq_some_iff.mp hparse
  obtain ⟨rfl, hlength, hheaders⟩ : result = .finishOk ∧ r.contentLength = -1 ∧
      r.headerBytes = [(contentLengthName, [45, 49])] := by simpa using heq
  refine ⟨r, hx, hlength, fun h => ?_⟩
  have hunreadable : ¬ Readable [45, 49] := by
    rintro ⟨n, hn, _⟩
    rw [show plainDecimal [45, 49] = none from rfl] at hn
    simp at hn
  have hmem : (contentLengthName, [45, 49]) ∈ r.headerBytes := by
    rw [hheaders]
    exact List.mem_singleton.mpr rfl
  exact absurd (h.refused _ hmem rfl hunreadable) (by decide)

end HttpRequest
end EpollHttp
