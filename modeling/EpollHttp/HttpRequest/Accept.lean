import EpollHttp.HttpRequest.Shape

/-
The parser follows a request head that stands in its data.

One `next_` lemma for each token, and from them the states visited on the way over a
whole head.
-/

namespace EpollHttp
namespace HttpRequest

open CString

/-! ## One token -/

section
variable {r : HttpRequest} {token tail : Bytes} {c : UInt8}

theorem rest_of_cur {r' : HttpRequest} {back : Bytes} (hrest : r.rest = token ++ back)
    (hdata : r'.data = r.data) (hcur : r'.cur = r.cur + token.length) : r'.rest = back := by
  unfold rest at hrest ⊢
  rw [hdata, hcur, ← List.drop_drop, hrest, List.drop_left]

theorem next_method (hstate : r.state = .method) (hrest : r.rest = token ++ space :: tail)
    (htoken : ∀ x ∈ token, isUpper x = true) : Next r (r.tookMethod token) := by
  have hread : r.readMethod = .ok token.length := by
    unfold readMethod
    rw [hrest, scan_token htoken (by decide), if_pos rfl]
  unfold Next iteration iterMethod
  rw [hstate, hread]
  rfl

theorem next_spaceAfterMethod (hstate : r.state = .spaceAfterMethod)
    (hrest : r.rest = token ++ c :: tail) (htoken : ∀ x ∈ token, x = space)
    (hc : c ≠ space) (hbreak : isBreak c = false) : Next r (r.tookSpaces token) := by
  have hread : r.readSpaces = .ok token.length := by
    unfold readSpaces
    rw [hrest, scan_token (by simpa using htoken) (by simpa using hc), hbreak]
    rfl
  unfold Next iteration iterSpaceAfterMethod
  rw [hstate, hread]
  rfl

theorem next_url (hstate : r.state = .url) (hrest : r.rest = token ++ space :: tail)
    (htoken : ∀ x ∈ token, readUrlSymbols x = true) :
    Next r (r.tookUrl token .spaceAfterUrl) := by
  have hread : r.readUrl = .ok token.length := by
    unfold readUrl
    rw [hrest, scan_token htoken (by decide), if_pos rfl]
  unfold Next iteration iterUrl
  rw [hstate, hread]
  rfl

theorem next_url_question (hstate : r.state = .url)
    (hrest : r.rest = token ++ question :: tail)
    (htoken : ∀ x ∈ token, readUrlSymbols x = true) :
    Next r (r.tookUrl token .urlParameters) := by
  have hread : r.readUrl = .question token.length := by
    unfold readUrl
    rw [hrest, scan_token htoken (by decide), if_neg (by decide), if_pos rfl]
  unfold Next iteration iterUrl
  rw [hstate, hread]
  rfl

theorem next_urlParameters (hstate : r.state = .urlParameters)
    (hrest : r.rest = token ++ space :: tail) (htoken : ∀ x ∈ token, x ≠ space) :
    Next r (r.tookUrlParameters token) := by
  have hread : r.readUrlParameters = .ok token.length := by
    unfold readUrlParameters
    rw [hrest, scan_token (by simpa using htoken) (by decide)]
    rfl
  unfold Next iteration iterUrlParameters
  rw [hstate, hread]
  rfl

theorem next_spaceAfterUrl {run : Bytes} (hstate : r.state = .spaceAfterUrl)
    (hrest : r.rest = token ++ (run ++ c :: tail)) (htoken : ∀ x ∈ token, isBreak x = false)
    (hrun : IsLineBreak run) (hc : isBreak c = false) : Next r (r.tookLine (token ++ run)) := by
  obtain ⟨b, run', rfl⟩ := List.exists_cons_of_ne_nil hrun.ne
  have hb : isBreak b = true := hrun.breaks b (by simp)
  rw [List.cons_append] at hrest
  have hread : r.readToNextLine = .ok (token ++ b :: run').length := by
    unfold readToNextLine
    rw [hrest, Scan.dropWhile_token (by simpa using htoken) (by simp [hb]),
      Scan.takeWhile_token (by simpa using htoken) (by simp [hb])]
    show (if 1 < lineBreakCounter ((b :: run' ++ c :: tail).takeWhile isBreak) then _
      else scan isBreak _ (b :: run' ++ c :: tail)) = _
    rw [Scan.takeWhile_token hrun.breaks hc, if_neg (Nat.not_lt.mpr hrun.one),
      scan_token hrun.breaks hc, List.length_append]
  unfold Next iteration iterSpaceAfterUrl
  rw [hstate, hread]
  rfl

theorem next_headerKey (hstate : r.state = .headerKey)
    (hrest : r.rest = token ++ colon :: tail)
    (htoken : ∀ x ∈ token, readHeaderKeySymbols x = true) : Next r (r.tookKey token) := by
  have hread : r.readHeaderKey = .ok token.length := by
    unfold readHeaderKey
    rw [hrest, scan_token htoken (by decide), if_pos rfl]
  unfold Next iteration iterHeaderKey
  rw [hstate, hread]
  rfl

theorem next_headerSpace (hstate : r.state = .headerSpace)
    (hrest : r.rest = token ++ c :: tail) (htoken : ∀ x ∈ token, isHeaderSpace x = true)
    (hc : isHeaderSpace c = false) (hbreak : isBreak c = false) : Next r (r.tookSep token) := by
  have hread : r.readHeaderSpace = .ok token.length := by
    unfold readHeaderSpace
    rw [hrest, scan_token htoken hc, hbreak]
    rfl
  unfold Next iteration iterHeaderSpace
  rw [hstate, hread]
  rfl

theorem next_headerValue {key : Bytes} (hstate : r.state = .headerValue)
    (hrest : r.rest = token ++ c :: tail) (htoken : ∀ x ∈ token, isBreak x = false)
    (hc : isBreak c = true) (hkey : r.fieldBytes r.curKey = key)
    (hshort : namesContentLength key = true → token.length ≤ bufChars) :
    Next r (r.tookValue key token) := by
  have hread : r.readHeaderValue = .ok token.length := by
    unfold readHeaderValue
    rw [hrest, scan_token (by simpa using htoken) (by simp [hc])]
  unfold Next iteration iterHeaderValue
  rw [hstate, hread]
  simp only [hkey]
  by_cases hname : namesContentLength key = true
  · rw [if_pos hname, if_neg (Nat.not_lt.mpr (hshort hname)), tookValue, if_pos hname,
      fieldBytes_at_cur hrest]
  · rw [if_neg hname, tookValue, if_neg hname]

theorem next_headerLineBreak (hstate : r.state = .headerLineBreak)
    (hrest : r.rest = token ++ c :: tail) (hrun : IsLineBreak token) (hc : isBreak c = false) :
    Next r (r.tookLine token) := by
  have hread : r.readHeaderLineBreak = .ok token.length := by
    unfold readHeaderLineBreak
    rw [hrest, Scan.takeWhile_token hrun.breaks hc, if_neg (Nat.not_lt.mpr hrun.one),
      scan_token hrun.breaks hc]
  unfold Next iteration iterHeaderLineBreak
  rw [hstate, hread]
  rfl

/-- The reader at the run that closes the head. -/
theorem readHeaderLineBreak_closing (hrest : r.rest = token ++ tail) (hrun : IsClosing token)
    (htail : ∀ c, tail.head? = some c → isBreak c = false) :
    r.readHeaderLineBreak = .endOfHeaders (some token.length) := by
  have htake : (token ++ tail).takeWhile isBreak = token := by
    cases tail with
    | nil => rw [List.append_nil, Scan.takeWhile_all hrun.breaks]
    | cons c tail => exact Scan.takeWhile_token hrun.breaks (htail c rfl)
  unfold readHeaderLineBreak
  rw [hrest, htake, if_pos hrun.two]

theorem next_closing (hstate : r.state = .headerLineBreak) (hrest : r.rest = token ++ tail)
    (hrun : IsClosing token) (htail : ∀ c, tail.head? = some c → isBreak c = false)
    (hne : r.contentLength ≠ 0) : Next r (r.tookClosing token) := by
  unfold Next iteration iterHeaderLineBreak
  rw [hstate, readHeaderLineBreak_closing hrest hrun htail]
  simp only [if_neg hne]
  rfl

end

/-! ## A whole head -/

section
variable {data urlBuffer : Bytes}

theorem visits_afterSpaces {t : Target} {c : UInt8} {tail : Bytes}
    (hdata : data = t.method ++ (t.spaces ++ c :: tail))
    (hmethod : ∀ c ∈ t.method, isUpper c = true) (hne : t.spaces ≠ [])
    (hspaces : ∀ c ∈ t.spaces, c = space) (hc : c ≠ space) (hbreak : isBreak c = false) :
    Visits (startState data urlBuffer) (afterSpaces data urlBuffer t) := by
  obtain ⟨b, spaces, hcons⟩ := List.exists_cons_of_ne_nil hne
  have hb : b = space := hspaces b (by rw [hcons]; simp)
  have hstart : (startState data urlBuffer).rest =
      t.method ++ space :: (spaces ++ c :: tail) := by
    show data = _
    rw [hdata, hcons, hb, List.cons_append]
  have hmid : ((startState data urlBuffer).tookMethod t.method).rest =
      t.spaces ++ c :: tail := by
    rw [hcons, hb, List.cons_append]
    exact rest_of_cur hstart rfl rfl
  exact (Relation.ReflTransGen.single (next_method rfl hstart hmethod)).tail
    (next_spaceAfterMethod rfl hmid hspaces hc hbreak)

theorem rest_afterSpaces {t : Target} {back : Bytes}
    (hdata : data = t.method ++ (t.spaces ++ back)) :
    (afterSpaces data urlBuffer t).rest = back :=
  rest_of_split (by rw [List.append_assoc]; exact hdata) (by simp)

/-- The symbols of a URL are neither spaces nor line breaks. -/
theorem readUrlSymbols_visible {c : UInt8} (h : readUrlSymbols c = true) :
    c ≠ space ∧ isBreak c = false := by
  constructor
  · intro he
    rw [he] at h
    exact absurd h (by decide)
  · by_contra hb
    rw [Bool.not_eq_false] at hb
    rcases isBreak_iff.mp hb with rfl | rfl <;> exact absurd h (by decide)

theorem head_of_url {url tail : Bytes} {stop : UInt8} (hurl : ∀ c ∈ url, readUrlSymbols c = true)
    (hstop : stop ≠ space ∧ isBreak stop = false) :
    ∃ c back, url ++ stop :: tail = c :: back ∧ c ≠ space ∧ isBreak c = false := by
  cases url with
  | nil => exact ⟨stop, tail, rfl, hstop⟩
  | cons c url => exact ⟨c, url ++ stop :: tail, rfl, readUrlSymbols_visible (hurl c (by simp))⟩

/-- A request line with a question mark brings the parser into the URL parameters. -/
theorem visits_urlParameters {t : Target} {tail : Bytes}
    (hdata : data = t.method ++ (t.spaces ++ (t.url ++ question :: tail)))
    (hmethod : ∀ c ∈ t.method, isUpper c = true) (hne : t.spaces ≠ [])
    (hspaces : ∀ c ∈ t.spaces, c = space) (hurl : ∀ c ∈ t.url, readUrlSymbols c = true) :
    Visits (startState data urlBuffer)
      ((afterSpaces data urlBuffer t).tookUrl t.url .urlParameters) := by
  obtain ⟨c, back, hback, hc, hbreak⟩ := head_of_url hurl (by decide : question ≠ space ∧ _)
  have hspace : Visits (startState data urlBuffer) (afterSpaces data urlBuffer t) :=
    visits_afterSpaces (hback ▸ hdata) hmethod hne hspaces hc hbreak
  exact hspace.tail (next_url_question rfl (rest_afterSpaces hdata) hurl)

theorem visits_afterTarget {t : Target} {tail : Bytes} (hdata : data = t.bytes ++ space :: tail)
    (ht : t.WellFormed) :
    Visits (startState data urlBuffer) (afterTarget data urlBuffer t) := by
  rcases ht.params with hnil | ⟨q, hq⟩
  · have hsplit : data = t.method ++ (t.spaces ++ (t.url ++ space :: tail)) := by
      rw [hdata]
      simp [Target.bytes, hnil]
    obtain ⟨c, url, hcons⟩ := List.exists_cons_of_ne_nil (fun he => ht.url_or_params he hnil)
    have hvisible := readUrlSymbols_visible (ht.url c (by rw [hcons]; simp))
    have hspace : Visits (startState data urlBuffer) (afterSpaces data urlBuffer t) :=
      visits_afterSpaces (show data = t.method ++ (t.spaces ++ c :: (url ++ space :: tail)) by
        rw [hsplit, hcons, List.cons_append]) ht.method ht.spaces_ne ht.spaces hvisible.1
        hvisible.2
    unfold afterTarget
    rw [if_pos hnil]
    exact hspace.tail (next_url rfl (rest_afterSpaces hsplit) ht.url)
  · have hsplit : data = t.method ++ (t.spaces ++ (t.url ++ question :: (q ++ space :: tail))) := by
      rw [hdata]
      simp [Target.bytes, hq]
    have hparams : Visits (startState data urlBuffer)
        ((afterSpaces data urlBuffer t).tookUrl t.url .urlParameters) :=
      visits_urlParameters hsplit ht.method ht.spaces_ne ht.spaces ht.url
    have hrest : ((afterSpaces data urlBuffer t).tookUrl t.url .urlParameters).rest =
        t.params ++ space :: tail := by
      rw [hq]
      exact rest_of_cur (rest_afterSpaces hsplit) rfl rfl
    unfold afterTarget
    rw [if_neg (by rw [hq]; simp)]
    exact hparams.tail (next_urlParameters rfl hrest ht.params_space)

theorem visits_afterRequestLine {l : RequestLine} {c : UInt8} {tail : Bytes}
    (hdata : data = l.bytes ++ c :: tail) (hl : l.WellFormed) (hc : isBreak c = false) :
    Visits (startState data urlBuffer) (afterRequestLine data urlBuffer l) := by
  obtain ⟨rest', hcons⟩ := List.head?_eq_some_iff.mp hl.tail_head
  have hsplit : data = l.target.bytes ++ (l.tail ++ (l.lineBreak ++ c :: tail)) := by
    rw [hdata]
    simp [RequestLine.bytes]
  have htarget : Visits (startState data urlBuffer) (afterTarget data urlBuffer l.target) :=
    visits_afterTarget (show data = l.target.bytes ++
      space :: (rest' ++ (l.lineBreak ++ c :: tail)) by
        rw [hsplit, hcons, List.cons_append]) hl.target
  have hrest : (afterTarget data urlBuffer l.target).rest =
      l.tail ++ (l.lineBreak ++ c :: tail) :=
    rest_of_split (by simpa using hsplit) (by simp)
  exact htarget.tail
    (next_spaceAfterUrl (by simp) hrest hl.tail hl.lineBreak hc)

/-! ### Header lines -/

theorem readHeaderKeySymbols_visible {c : UInt8} (h : readHeaderKeySymbols c = true) :
    isBreak c = false := by
  by_contra hb
  rw [Bool.not_eq_false] at hb
  rcases isBreak_iff.mp hb with rfl | rfl <;> exact absurd h (by decide)

theorem HeaderLine.WellFormed.sep_cons {l : HeaderLine} (hl : l.WellFormed) :
    ∃ sep, l.sep = colon :: sep := List.head?_eq_some_iff.mp hl.sep_head

/-- A header line does not begin with a line break. -/
theorem HeaderLine.WellFormed.head {l : HeaderLine} (hl : l.WellFormed) (more : Bytes) :
    ∃ c back, l.bytes ++ more = c :: back ∧ isBreak c = false := by
  obtain ⟨sep, hsep⟩ := hl.sep_cons
  cases hkey : l.key with
  | nil => exact ⟨colon, sep ++ l.value ++ more, by simp [HeaderLine.bytes, hkey, hsep], rfl⟩
  | cons c key =>
    exact ⟨c, key ++ (l.sep ++ l.value) ++ more, by simp [HeaderLine.bytes, hkey],
      readHeaderKeySymbols_visible (hl.key c (by rw [hkey]; simp))⟩

theorem visits_headerLine {r : HttpRequest} {l : HeaderLine} {b : UInt8} {tail : Bytes}
    (hstate : r.state = .headerKey) (hrest : r.rest = l.bytes ++ b :: tail)
    (hl : l.WellFormed) (hb : isBreak b = true) : Visits r (r.tookHeaderLine l) := by
  obtain ⟨sep, hsep⟩ := hl.sep_cons
  obtain ⟨c, value, hvalue⟩ := List.exists_cons_of_ne_nil hl.value_ne
  have hkeyRest : r.rest = l.key ++ colon :: (sep ++ (l.value ++ b :: tail)) := by
    rw [hrest, HeaderLine.bytes, hsep]
    simp
  have hsepRest : (r.tookKey l.key).rest = l.sep ++ c :: (value ++ b :: tail) := by
    rw [rest_of_cur hkeyRest (show (r.tookKey l.key).data = r.data from rfl) rfl, hsep, hvalue]
    rfl
  have hvalueRest : ((r.tookKey l.key).tookSep l.sep).rest = l.value ++ b :: tail := by
    rw [hvalue]
    exact rest_of_cur hsepRest rfl rfl
  have hname : ((r.tookKey l.key).tookSep l.sep).fieldBytes
      ((r.tookKey l.key).tookSep l.sep).curKey = l.key := fieldBytes_at_cur hkeyRest
  have hkey : Next r (r.tookKey l.key) := next_headerKey hstate hkeyRest hl.key
  have hspace : Next (r.tookKey l.key) ((r.tookKey l.key).tookSep l.sep) :=
    next_headerSpace rfl hsepRest hl.sep (hl.value_head c (by rw [hvalue]; rfl))
      (hl.value c (by rw [hvalue]; simp))
  exact ((Relation.ReflTransGen.single hkey).tail hspace).tail
    (next_headerValue rfl hvalueRest hl.value hb hname hl.short)

theorem IsLineBreak.cons {run : Bytes} (h : IsLineBreak run) :
    ∃ b run', run = b :: run' ∧ isBreak b = true := by
  obtain ⟨b, run', rfl⟩ := List.exists_cons_of_ne_nil h.ne
  exact ⟨b, run', rfl, h.breaks b (by simp)⟩

theorem visits_afterLines {l : RequestLine} {lines : List BrokenLine} {c : UInt8} {tail : Bytes}
    (hdata : data = l.bytes ++ (linesBytes lines ++ c :: tail)) (hl : l.WellFormed)
    (hlines : ∀ x ∈ lines, x.1.WellFormed ∧ IsLineBreak x.2) (hc : isBreak c = false) :
    Visits (startState data urlBuffer) (afterLines data urlBuffer l lines) := by
  induction lines using List.reverseRecOn generalizing c tail with
  | nil => exact visits_afterRequestLine (by rw [hdata]; rfl) hl hc
  | append_singleton lines x ih =>
    obtain ⟨hx, hbreak⟩ := hlines x (by simp)
    obtain ⟨b, run, hrun, hb⟩ := hbreak.cons
    have hsplit : data = l.bytes ++ (linesBytes lines ++ (x.1.bytes ++ (x.2 ++ c :: tail))) := by
      rw [hdata, linesBytes_append]
      simp [linesBytes]
    obtain ⟨d, back, hback, hd⟩ := hx.head (x.2 ++ c :: tail)
    have hbefore : Visits (startState data urlBuffer) (afterLines data urlBuffer l lines) :=
      ih (by rw [hsplit, hback]) (fun y hy => hlines y (by simp [hy])) hd
    have hrest : (afterLines data urlBuffer l lines).rest = x.1.bytes ++ (x.2 ++ c :: tail) :=
      rest_of_split (by rw [List.append_assoc]; simpa using hsplit) (by simp)
    have hline : Visits (afterLines data urlBuffer l lines)
        ((afterLines data urlBuffer l lines).tookHeaderLine x.1) :=
      visits_headerLine (by simp) (by rw [hrest, hrun, List.cons_append]) hx hb
    have hbreakRest : ((afterLines data urlBuffer l lines).tookHeaderLine x.1).rest =
        x.2 ++ c :: tail := rest_of_cur hrest rfl (by simp)
    rw [afterLines_append]
    exact (hbefore.trans hline).tail (next_headerLineBreak rfl hbreakRest hbreak hc)

/-- A head with a line break behind it brings the parser in front of the line break. -/
theorem visits_afterHead {h : Head} {b : UInt8} {tail : Bytes}
    (hdata : data = h.bytes ++ b :: tail) (hh : h.WellFormed) (hb : isBreak b = true) :
    Visits (startState data urlBuffer) (afterHead data urlBuffer h) := by
  have hsplit : data = h.requestLine.bytes ++
      (linesBytes h.lines ++ (h.last.bytes ++ b :: tail)) := by
    rw [hdata]
    simp [Head.bytes]
  obtain ⟨d, back, hback, hd⟩ := hh.last.head (b :: tail)
  have hrest : (afterLines data urlBuffer h.requestLine h.lines).rest =
      h.last.bytes ++ b :: tail :=
    rest_of_split (by rw [List.append_assoc]; simpa using hsplit) (by simp)
  exact (visits_afterLines (by rw [hsplit, hback]) hh.requestLine hh.lines hd).trans
    (visits_headerLine (by simp) hrest hh.last hb)

theorem rest_afterHead {h : Head} {back : Bytes} (hdata : data = h.bytes ++ back) :
    (afterHead data urlBuffer h).rest = back := rest_of_split (by simpa using hdata) (by simp)

end

end HttpRequest
end EpollHttp
