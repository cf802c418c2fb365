import EpollHttp.HttpRequest.Head
import Mathlib.Data.List.Induction

/-
Every visited parser state belongs to a prefix of a head.
-/

namespace EpollHttp
namespace HttpRequest

open CString

/-! ## Rounds that go on -/

/-- A round that does not return. -/
def Next (r r' : HttpRequest) : Prop := r.iteration = (r', none)

/-- Any number of rounds that do not return. -/
abbrev Visits : HttpRequest → HttpRequest → Prop := Relation.ReflTransGen Next

theorem next_unique {r a b : HttpRequest} (ha : Next r a) (hb : Next r b) : a = b := by
  unfold Next at ha hb
  rw [ha] at hb
  exact (Prod.mk.inj hb).1

/-- Of two visited states one is on the way to the other. -/
theorem visits_linear {r a b : HttpRequest} (ha : Visits r a) (hb : Visits r b) :
    Visits a b ∨ Visits b a := by
  induction ha with
  | refl => exact Or.inl hb
  | tail _ hstep ih =>
    rcases ih with hab | hba
    · rcases Relation.ReflTransGen.cases_head hab with heq | ⟨c, hc, hcb⟩
      · exact Or.inr (heq ▸ Relation.ReflTransGen.single hstep)
      · exact Or.inl (next_unique hc hstep ▸ hcb)
    · exact Or.inr (hba.tail hstep)

/-- A state whose round returns is the last one visited. -/
theorem visits_returned {r b : HttpRequest} {result : ParseResult}
    (hr : r.iteration.2 = some result) (hb : Visits r b) : b = r := by
  rcases Relation.ReflTransGen.cases_head hb with heq | ⟨c, hc, _⟩
  · exact heq.symm
  · unfold Next at hc
    rw [hc] at hr
    simp at hr

theorem rest_of_split {r : HttpRequest} {front back : Bytes} (hdata : r.data = front ++ back)
    (hcur : r.cur = front.length) : r.rest = back := by
  unfold rest
  rw [hdata, hcur, List.drop_left]

section
variable {r r' : HttpRequest}

/-! ### What a round that goes on did -/

theorem iterMethod_next (h : r.iterMethod = (r', none)) :
    ∃ token tail, r.rest = token ++ space :: tail ∧ (∀ x ∈ token, isUpper x = true) ∧
      r' = r.tookMethod token := by
  unfold iterMethod at h
  split at h <;> simp only [Prod.mk.injEq, reduceCtorEq, and_false, and_true] at h
  rename_i length hread
  obtain ⟨token, tail, hrest, htoken, rfl⟩ := readMethod_ok hread
  exact ⟨token, tail, hrest, htoken, h.symm⟩

theorem iterSpaceAfterMethod_next (h : r.iterSpaceAfterMethod = (r', none)) :
    ∃ token c tail, r.rest = token ++ c :: tail ∧ (∀ x ∈ token, x = space) ∧
      c ≠ space ∧ isBreak c = false ∧ r' = r.tookSpaces token := by
  unfold iterSpaceAfterMethod at h
  split at h <;> simp only [Prod.mk.injEq, reduceCtorEq, and_false, and_true] at h
  rename_i length hread
  obtain ⟨token, c, tail, hrest, htoken, hc, hbreak, rfl⟩ := readSpaces_ok hread
  exact ⟨token, c, tail, hrest, htoken, hc, hbreak, h.symm⟩

/-- The symbol behind the URL selects the next state. -/
theorem iterUrl_next (h : r.iterUrl = (r', none)) :
    ∃ token tail, (∀ x ∈ token, readUrlSymbols x = true) ∧
      ((r.rest = token ++ space :: tail ∧ r' = r.tookUrl token .spaceAfterUrl) ∨
        (r.rest = token ++ question :: tail ∧ r' = r.tookUrl token .urlParameters)) := by
  unfold iterUrl at h
  split at h <;> simp only [Prod.mk.injEq, reduceCtorEq, and_false, and_true] at h
  · rename_i length hread
    obtain ⟨token, tail, hrest, htoken, rfl⟩ := readUrl_ok hread
    exact ⟨token, tail, htoken, Or.inl ⟨hrest, h.symm⟩⟩
  · rename_i length hread
    obtain ⟨token, tail, hrest, htoken, rfl⟩ := readUrl_question hread
    exact ⟨token, tail, htoken, Or.inr ⟨hrest, h.symm⟩⟩

/-- Without a space in sight the round goes on and changes nothing. -/
theorem iterUrlParameters_next (h : r.iterUrlParameters = (r', none)) :
    (∃ token tail, r.rest = token ++ space :: tail ∧ (∀ x ∈ token, x ≠ space) ∧
      r' = r.tookUrlParameters token) ∨
    (space ∉ r.rest ∧ r' = r) := by
  unfold iterUrlParameters at h
  split at h <;> simp only [Prod.mk.injEq, and_true] at h
  · rename_i length hread
    obtain ⟨token, tail, hrest, htoken, rfl⟩ := readUrlParameters_ok hread
    exact Or.inl ⟨token, tail, hrest, htoken, h.symm⟩
  · rename_i hread
    refine Or.inr ⟨fun hmem => ?_, h.symm⟩
    obtain ⟨length, hok⟩ := readUrlParameters_of_space hmem
    exact hread length hok

theorem iterSpaceAfterUrl_next (h : r.iterSpaceAfterUrl = (r', none)) :
    ∃ line run c tail, r.rest = line ++ (run ++ c :: tail) ∧
      (∀ x ∈ line, isBreak x = false) ∧ IsLineBreak run ∧ isBreak c = false ∧
      r' = r.tookLine (line ++ run) := by
  unfold iterSpaceAfterUrl at h
  split at h <;> simp only [Prod.mk.injEq, reduceCtorEq, and_false, and_true] at h
  rename_i length hread
  obtain ⟨line, run, c, tail, hrest, hline, hrun, hne, hone, hc, rfl⟩ := readToNextLine_ok hread
  refine ⟨line, run, c, tail, hrest, hline, ⟨hne, hrun, hone⟩, hc, ?_⟩
  rw [← h, tookLine, List.length_append]

theorem iterHeaderKey_next (h : r.iterHeaderKey = (r', none)) :
    ∃ token tail, r.rest = token ++ colon :: tail ∧
      (∀ x ∈ token, readHeaderKeySymbols x = true) ∧ r' = r.tookKey token := by
  unfold iterHeaderKey at h
  split at h <;> simp only [Prod.mk.injEq, reduceCtorEq, and_false, and_true] at h
  rename_i length hread
  obtain ⟨token, tail, hrest, htoken, rfl⟩ := readHeaderKey_ok hread
  exact ⟨token, tail, hrest, htoken, h.symm⟩

theorem iterHeaderSpace_next (h : r.iterHeaderSpace = (r', none)) :
    ∃ token c tail, r.rest = token ++ c :: tail ∧ (∀ x ∈ token, isHeaderSpace x = true) ∧
      isHeaderSpace c = false ∧ isBreak c = false ∧ r' = r.tookSep token := by
  unfold iterHeaderSpace at h
  split at h <;> simp only [Prod.mk.injEq, reduceCtorEq, and_false, and_true] at h
  rename_i length hread
  obtain ⟨token, c, tail, hrest, htoken, hc, hbreak, rfl⟩ := readHeaderSpace_ok hread
  exact ⟨token, c, tail, hrest, htoken, hc, hbreak, h.symm⟩

/-- The value at `cur` is the bytes in front of the stop symbol. -/
theorem fieldBytes_at_cur {token back : Bytes} (hrest : r.rest = token ++ back) :
    r.fieldBytes { start := r.cur, length := token.length } = token := by
  show (r.rest).take token.length = token
  rw [hrest, List.take_left]

theorem iterHeaderValue_next (h : r.iterHeaderValue = (r', none)) :
    ∃ token c tail, r.rest = token ++ c :: tail ∧ (∀ x ∈ token, isBreak x = false) ∧
      isBreak c = true ∧
      (namesContentLength (r.fieldBytes r.curKey) = true → token.length ≤ bufChars) ∧
      r' = r.tookValue (r.fieldBytes r.curKey) token := by
  unfold iterHeaderValue at h
  split at h
  · rename_i length hread
    obtain ⟨token, c, tail, hrest, htoken, hc, rfl⟩ := readHeaderValue_ok hread
    refine ⟨token, c, tail, hrest, htoken, hc, ?_⟩
    by_cases hname : namesContentLength (r.fieldBytes r.curKey) = true
    · simp only [hname, if_true] at h
      by_cases hlong : bufChars < token.length
      · rw [if_pos hlong] at h
        exact absurd (congrArg Prod.snd h) (by simp)
      · rw [if_neg hlong] at h
        refine ⟨fun _ => Nat.le_of_not_lt hlong, ?_⟩
        rw [← (Prod.mk.inj h).1, tookValue, if_pos hname, fieldBytes_at_cur hrest]
    · simp only [hname, if_false, Bool.false_eq_true] at h
      refine ⟨fun hn => absurd hn hname, ?_⟩
      rw [← (Prod.mk.inj h).1, tookValue, if_neg hname]
  · exact absurd (congrArg Prod.snd h) (by simp)
  · exact absurd (congrArg Prod.snd h) (by simp)

/-- Either the next line begins, or the head is closed and a body is expected. -/
theorem iterHeaderLineBreak_next (h : r.iterHeaderLineBreak = (r', none)) :
    (∃ run c tail, r.rest = run ++ c :: tail ∧ (∀ x ∈ run, isBreak x = true) ∧
      lineBreakCounter run ≤ 1 ∧ isBreak c = false ∧ r' = r.tookLine run) ∨
    (1 < lineBreakCounter (r.rest.takeWhile isBreak) ∧ r.contentLength ≠ 0 ∧
      r' = r.tookClosing (r.rest.takeWhile isBreak)) := by
  unfold iterHeaderLineBreak at h
  split at h
  · rename_i length hread
    obtain ⟨run, c, tail, hrest, hrun, hone, hc, rfl⟩ := readHeaderLineBreak_ok hread
    exact Or.inl ⟨run, c, tail, hrest, hrun, hone, hc, ((Prod.mk.inj h).1).symm⟩
  · rename_i length hread
    obtain ⟨htwo, rfl⟩ := readHeaderLineBreak_endOfHeaders hread
    by_cases hzero : r.contentLength = 0
    · rw [if_pos hzero] at h
      exact absurd (congrArg Prod.snd h) (by simp)
    · rw [if_neg hzero] at h
      exact Or.inr ⟨htwo, hzero, ((Prod.mk.inj h).1).symm⟩
  · exact absurd (congrArg Prod.snd h) (by simp)
  · exact absurd (congrArg Prod.snd h) (by simp)

theorem iterContent_returns (r : HttpRequest) : r.iterContent.2 ≠ none := by
  unfold iterContent
  split <;> simp

end

/-! ## Position and data of the states of a prefix -/

section
variable (data urlBuffer : Bytes)

@[simp] theorem afterSpaces_cur (t : Target) :
    (afterSpaces data urlBuffer t).cur = t.method.length + t.spaces.length := by
  simp [afterSpaces, startState, tookMethod, tookSpaces]

@[simp] theorem afterTarget_cur (t : Target) :
    (afterTarget data urlBuffer t).cur = t.bytes.length := by
  unfold afterTarget Target.bytes
  split
  · rename_i hp
    simp [tookUrl, hp]
    omega
  · simp [tookUrl, tookUrlParameters]
    omega

@[simp] theorem afterRequestLine_cur (l : RequestLine) :
    (afterRequestLine data urlBuffer l).cur = l.bytes.length := by
  simp [afterRequestLine, tookLine, RequestLine.bytes]

theorem linesBytes_append (a b : List BrokenLine) :
    linesBytes (a ++ b) = linesBytes a ++ linesBytes b := by
  simp [linesBytes]

theorem afterLines_append (l : RequestLine) (lines : List BrokenLine) (x : BrokenLine) :
    afterLines data urlBuffer l (lines ++ [x]) =
      ((afterLines data urlBuffer l lines).tookHeaderLine x.1).tookLine x.2 := by
  simp [afterLines, List.foldl_append]

@[simp] theorem tookHeaderLine_cur (r : HttpRequest) (l : HeaderLine) :
    (r.tookHeaderLine l).cur = r.cur + l.bytes.length := by
  simp [tookHeaderLine, tookKey, tookSep, tookValue, HeaderLine.bytes]
  omega

@[simp] theorem afterLines_cur (l : RequestLine) (lines : List BrokenLine) :
    (afterLines data urlBuffer l lines).cur = l.bytes.length + (linesBytes lines).length := by
  induction lines using List.reverseRecOn with
  | nil => simp [afterLines, linesBytes]
  | append_singleton lines x ih =>
    rw [afterLines_append, linesBytes_append]
    simp [tookLine, ih, linesBytes]
    omega

@[simp] theorem afterHead_cur (h : Head) :
    (afterHead data urlBuffer h).cur = h.bytes.length := by
  simp [afterHead, Head.bytes]
  omega

@[simp] theorem afterTarget_data (t : Target) : (afterTarget data urlBuffer t).data = data := by
  unfold afterTarget
  split <;> rfl

@[simp] theorem afterLines_data (l : RequestLine) (lines : List BrokenLine) :
    (afterLines data urlBuffer l lines).data = data := by
  induction lines using List.reverseRecOn with
  | nil => exact afterTarget_data data urlBuffer l.target
  | append_singleton lines x ih =>
    rw [afterLines_append]
    exact ih

@[simp] theorem afterHead_data (h : Head) : (afterHead data urlBuffer h).data = data :=
  afterLines_data data urlBuffer h.requestLine h.lines

@[simp] theorem afterTarget_state (t : Target) :
    (afterTarget data urlBuffer t).state = .spaceAfterUrl := by
  unfold afterTarget
  split <;> rfl

@[simp] theorem afterLines_state (l : RequestLine) (lines : List BrokenLine) :
    (afterLines data urlBuffer l lines).state = .headerKey := by
  induction lines using List.reverseRecOn with
  | nil => rfl
  | append_singleton lines x ih =>
    rw [afterLines_append]
    rfl

@[simp] theorem afterHead_state (h : Head) :
    (afterHead data urlBuffer h).state = .headerLineBreak := rfl

end

/-! ## Reading the tokens off a visited state -/

theorem next_shape_method {data urlBuffer : Bytes} {r' : HttpRequest}
    (h : Next (startState data urlBuffer) r') : Shape data urlBuffer r' := by
  obtain ⟨method, tail, hrest, hmethod, rfl⟩ := iterMethod_next h
  exact Shape.spaceAfterMethod method tail hrest hmethod

theorem next_shape_spaceAfterMethod {data urlBuffer method tail : Bytes} {r' : HttpRequest}
    (hdata : data = method ++ space :: tail) (hmethod : ∀ c ∈ method, isUpper c = true)
    (h : Next ((startState data urlBuffer).tookMethod method) r') :
    Shape data urlBuffer r' := by
  obtain ⟨spaces, c, tail', hrest, hspaces, hc, hbreak, rfl⟩ := iterSpaceAfterMethod_next h
  have hrest' : ((startState data urlBuffer).tookMethod method).rest = space :: tail :=
    rest_of_split hdata (by simp [startState, tookMethod])
  rw [hrest'] at hrest
  have hne : spaces ≠ [] := by
    intro hnil
    rw [hnil] at hrest
    exact hc (List.cons.inj hrest).1.symm
  exact Shape.url ⟨method, spaces, [], []⟩ c tail' (by rw [hdata, hrest]) hmethod hne hspaces
    hc hbreak

theorem next_shape_url {data urlBuffer tail : Bytes} {t : Target} {c : UInt8}
    {r' : HttpRequest} (hdata : data = t.method ++ (t.spaces ++ c :: tail))
    (hmethod : ∀ c ∈ t.method, isUpper c = true) (hne : t.spaces ≠ [])
    (hspaces : ∀ c ∈ t.spaces, c = space) (hc : c ≠ space)
    (h : Next (afterSpaces data urlBuffer t) r') : Shape data urlBuffer r' := by
  obtain ⟨url, tail', hurl, hcase⟩ := iterUrl_next h
  have hrest' : (afterSpaces data urlBuffer t).rest = c :: tail :=
    rest_of_split (by rw [List.append_assoc]; exact hdata)
      (by simp)
  rw [hrest'] at hcase
  rcases hcase with ⟨hrest, rfl⟩ | ⟨hrest, rfl⟩
  · have hu : url ≠ [] := by
      intro hnil
      rw [hnil] at hrest
      exact hc (List.cons.inj hrest).1
    refine Shape.spaceAfterUrl ⟨t.method, t.spaces, url, []⟩ tail' ?_
      ⟨hmethod, hne, hspaces, hurl, Or.inl rfl, by simp, fun he => absurd he hu⟩
    rw [hdata, hrest]
    simp [Target.bytes]
  · exact Shape.urlParameters ⟨t.method, t.spaces, url, []⟩ tail' (by rw [hdata, hrest])
      hmethod hne hspaces hurl

theorem next_shape_urlParameters {data urlBuffer tail : Bytes} {t : Target} {r' : HttpRequest}
    (hdata : data = t.method ++ (t.spaces ++ (t.url ++ question :: tail)))
    (hmethod : ∀ c ∈ t.method, isUpper c = true) (hne : t.spaces ≠ [])
    (hspaces : ∀ c ∈ t.spaces, c = space) (hurl : ∀ c ∈ t.url, readUrlSymbols c = true)
    (h : Next ((afterSpaces data urlBuffer t).tookUrl t.url .urlParameters) r') :
    Shape data urlBuffer r' := by
  have hrest' : ((afterSpaces data urlBuffer t).tookUrl t.url .urlParameters).rest =
      question :: tail :=
    rest_of_split (show data = (t.method ++ (t.spaces ++ t.url)) ++ question :: tail by
      simpa using hdata) (by simp [tookUrl]; omega)
  rcases iterUrlParameters_next h with ⟨params, tail', hrest, hparams, rfl⟩ | ⟨_, rfl⟩
  · rw [hrest'] at hrest
    obtain ⟨q, rfl⟩ : ∃ q, params = question :: q := by
      cases params with
      | nil => exact absurd (List.cons.inj hrest).1 (by decide)
      | cons x q => exact ⟨q, by rw [(List.cons.inj hrest).1]⟩
    have hshape : Shape data urlBuffer _ := Shape.spaceAfterUrl
      ⟨t.method, t.spaces, t.url, question :: q⟩ tail'
      (by rw [hdata, hrest]; simp [Target.bytes])
      ⟨hmethod, hne, hspaces, hurl, Or.inr ⟨q, rfl⟩, hparams, by simp⟩
    simpa [afterTarget, afterSpaces] using hshape
  · exact Shape.urlParameters t tail hdata hmethod hne hspaces hurl

theorem next_shape_spaceAfterUrl {data urlBuffer tail : Bytes} {t : Target}
    {r' : HttpRequest} (hdata : data = t.bytes ++ space :: tail) (ht : t.WellFormed)
    (h : Next (afterTarget data urlBuffer t) r') : Shape data urlBuffer r' := by
  have hiter : (afterTarget data urlBuffer t).iterSpaceAfterUrl = (r', none) := by
    unfold Next iteration at h
    rwa [afterTarget_state] at h
  obtain ⟨line, run, c, tail', hrest, hline, hrun, hc, rfl⟩ := iterSpaceAfterUrl_next hiter
  have hrest' : (afterTarget data urlBuffer t).rest = space :: tail :=
    rest_of_split (by rw [afterTarget_data]; exact hdata) (by simp)
  rw [hrest'] at hrest
  have hhead : line.head? = some space := by
    cases line with
    | nil =>
      obtain ⟨b, run', hb⟩ := List.exists_cons_of_ne_nil hrun.ne
      rw [hb] at hrest
      have hspace := hrun.breaks space (by rw [hb, (List.cons.inj hrest).1]; simp)
      exact absurd hspace (by decide)
    | cons x line => rw [(List.cons.inj hrest).1]; rfl
  refine Shape.headerKey ⟨t, line, run⟩ [] c tail' ?_ ⟨ht, hhead, hline, hrun⟩ (by simp) hc
  rw [hdata, hrest]
  simp [RequestLine.bytes, linesBytes]

section
variable {data urlBuffer : Bytes} {l : RequestLine} {lines : List BrokenLine}
  {r' : HttpRequest}

theorem next_shape_headerKey {c : UInt8} {tail : Bytes}
    (hdata : data = l.bytes ++ (linesBytes lines ++ c :: tail)) (hl : l.WellFormed)
    (hlines : ∀ x ∈ lines, x.1.WellFormed ∧ IsLineBreak x.2)
    (h : Next (afterLines data urlBuffer l lines) r') : Shape data urlBuffer r' := by
  have hiter : (afterLines data urlBuffer l lines).iterHeaderKey = (r', none) := by
    unfold Next iteration at h
    rwa [afterLines_state] at h
  obtain ⟨key, tail', hrest, hkey, rfl⟩ := iterHeaderKey_next hiter
  have hrest' : (afterLines data urlBuffer l lines).rest = c :: tail :=
    rest_of_split (show _ = (l.bytes ++ linesBytes lines) ++ c :: tail by
      rw [afterLines_data, hdata, List.append_assoc]) (by simp)
  rw [hrest'] at hrest
  exact Shape.headerSpace l lines key tail' (by rw [hdata, hrest]) hl hlines hkey

theorem next_shape_headerSpace {key tail : Bytes}
    (hdata : data = l.bytes ++ (linesBytes lines ++ (key ++ colon :: tail)))
    (hl : l.WellFormed) (hlines : ∀ x ∈ lines, x.1.WellFormed ∧ IsLineBreak x.2)
    (hkey : ∀ c ∈ key, readHeaderKeySymbols c = true)
    (h : Next ((afterLines data urlBuffer l lines).tookKey key) r') :
    Shape data urlBuffer r' := by
  obtain ⟨sep, c, tail', hrest, hsep, hc, hbreak, rfl⟩ := iterHeaderSpace_next h
  have hrest' : ((afterLines data urlBuffer l lines).tookKey key).rest = colon :: tail :=
    rest_of_split (show _ = (l.bytes ++ (linesBytes lines ++ key)) ++ colon :: tail by
      simp [tookKey, hdata]) (by simp [tookKey]; omega)
  rw [hrest'] at hrest
  have hhead : sep.head? = some colon := by
    cases sep with
    | nil =>
      have hcolon : isHeaderSpace colon = false := by rw [(List.cons.inj hrest).1]; exact hc
      exact absurd hcolon (by decide)
    | cons x sep => rw [(List.cons.inj hrest).1]; rfl
  exact Shape.headerValue l lines key sep c tail' (by rw [hdata, hrest]) hl hlines hkey hhead
    hsep hc hbreak

/-- The name in front of the value is the one that was read last. -/
theorem fieldBytes_curKey {r : HttpRequest} {key back : Bytes} (hrest : r.rest = key ++ back)
    (sep : Bytes) :
    ((r.tookKey key).tookSep sep).fieldBytes ((r.tookKey key).tookSep sep).curKey = key := by
  show r.rest.take key.length = key
  rw [hrest, List.take_left]

theorem next_shape_headerValue {key sep tail : Bytes} {c : UInt8}
    (hdata : data = l.bytes ++ (linesBytes lines ++ (key ++ (sep ++ c :: tail))))
    (hl : l.WellFormed) (hlines : ∀ x ∈ lines, x.1.WellFormed ∧ IsLineBreak x.2)
    (hkey : ∀ c ∈ key, readHeaderKeySymbols c = true) (hhead : sep.head? = some colon)
    (hsep : ∀ c ∈ sep, isHeaderSpace c = true) (hc : isHeaderSpace c = false)
    (hbreak : isBreak c = false)
    (h : Next (((afterLines data urlBuffer l lines).tookKey key).tookSep sep) r') :
    Shape data urlBuffer r' := by
  obtain ⟨value, b, tail', hrest, hvalue, hb, hshort, rfl⟩ := iterHeaderValue_next h
  have hrest' : (((afterLines data urlBuffer l lines).tookKey key).tookSep sep).rest =
      c :: tail :=
    rest_of_split (show _ = (l.bytes ++ (linesBytes lines ++ (key ++ sep))) ++ c :: tail by
      simp [tookKey, tookSep, hdata]) (by simp [tookKey, tookSep]; omega)
  have hkeyrest : (afterLines data urlBuffer l lines).rest = key ++ (sep ++ c :: tail) :=
    rest_of_split (show _ = (l.bytes ++ linesBytes lines) ++ (key ++ (sep ++ c :: tail)) by
      rw [afterLines_data, hdata, List.append_assoc]) (by simp)
  rw [fieldBytes_curKey hkeyrest] at hshort ⊢
  rw [hrest'] at hrest
  obtain ⟨v, rfl⟩ : ∃ v, value = c :: v := by
    cases value with
    | nil =>
      rw [(List.cons.inj hrest).1, hb] at hbreak
      exact Bool.noConfusion hbreak
    | cons x v => exact ⟨v, by rw [(List.cons.inj hrest).1]⟩
  refine Shape.headerLineBreak ⟨l, lines, ⟨key, sep, c :: v⟩⟩ b tail' ?_
    ⟨hl, hlines, ⟨hkey, hhead, hsep, by simp, by simpa using hc, hvalue, hshort⟩⟩ hb
  rw [hdata, hrest]
  simp [Head.bytes, HeaderLine.bytes]

end

/-- The next line begins behind a line break, or the whole closing run was taken. -/
theorem next_shape_headerLineBreak {data urlBuffer tail : Bytes} {h : Head} {c : UInt8}
    {r' : HttpRequest} (hdata : data = h.bytes ++ c :: tail) (hh : h.WellFormed)
    (hc : isBreak c = true) (hnext : Next (afterHead data urlBuffer h) r') :
    Shape data urlBuffer r' := by
  have hrest' : (afterHead data urlBuffer h).rest = c :: tail :=
    rest_of_split (by rw [afterHead_data]; exact hdata) (by simp)
  have hiter : (afterHead data urlBuffer h).iterHeaderLineBreak = (r', none) := by
    unfold Next iteration at hnext
    rwa [afterHead_state] at hnext
  rcases iterHeaderLineBreak_next hiter with
    ⟨run, b, tail', hrest, hrun, hone, hb, rfl⟩ | ⟨htwo, hne, rfl⟩
  · rw [hrest'] at hrest
    have hrunne : run ≠ [] := by
      intro hnil
      rw [hnil] at hrest
      have hbc : c = b := (List.cons.inj hrest).1
      rw [hbc, hb] at hc
      exact Bool.noConfusion hc
    have hshape : Shape data urlBuffer _ := Shape.headerKey h.requestLine
      (h.lines ++ [(h.last, run)]) b tail'
      (by rw [hdata, hrest]; simp [Head.bytes, linesBytes]) hh.requestLine
      (by
        intro x hx
        rcases List.mem_append.mp hx with hx | hx
        · exact hh.lines x hx
        · rw [List.mem_singleton.mp hx]
          exact ⟨hh.last, hrunne, hrun, hone⟩) hb
    rw [afterLines_append] at hshape
    exact hshape
  · rw [hrest'] at htwo ⊢
    refine Shape.content h _ ((c :: tail).dropWhile isBreak) ⟨?_, hh, ?_, ?_⟩ hne
    · rw [List.takeWhile_append_dropWhile]
      exact hdata
    · exact ⟨fun x hx => Scan.token_class hx, htwo⟩
    · intro x hx
      cases hbody : (c :: tail).dropWhile isBreak with
      | nil => rw [hbody] at hx; simp at hx
      | cons y body =>
        rw [hbody] at hx
        rw [← Option.some.inj hx]
        exact Scan.stop_not hbody

theorem Shape.next {data urlBuffer : Bytes} {r r' : HttpRequest}
    (hr : Shape data urlBuffer r) (h : Next r r') : Shape data urlBuffer r' := by
  cases hr with
  | method => exact next_shape_method h
  | spaceAfterMethod method tail hdata hmethod =>
    exact next_shape_spaceAfterMethod hdata hmethod h
  | url t c tail hdata hmethod hne hspaces hc hbreak =>
    exact next_shape_url hdata hmethod hne hspaces hc h
  | urlParameters t tail hdata hmethod hne hspaces hurl =>
    exact next_shape_urlParameters hdata hmethod hne hspaces hurl h
  | spaceAfterUrl t tail hdata ht => exact next_shape_spaceAfterUrl hdata ht h
  | headerKey l lines c tail hdata hl hlines hc => exact next_shape_headerKey hdata hl hlines h
  | headerSpace l lines key tail hdata hl hlines hkey =>
    exact next_shape_headerSpace hdata hl hlines hkey h
  | headerValue l lines key sep c tail hdata hl hlines hkey hhead hsep hc hbreak =>
    exact next_shape_headerValue hdata hl hlines hkey hhead hsep hc hbreak h
  | headerLineBreak head c tail hdata hh hc => exact next_shape_headerLineBreak hdata hh hc h
  | content head closing body hh hne =>
    exact absurd (congrArg Prod.snd h) (iterContent_returns _)

/-- Every state visited from the start belongs to a prefix of a head. -/
theorem visits_shape {data urlBuffer : Bytes} {r : HttpRequest}
    (h : Visits (startState data urlBuffer) r) : Shape data urlBuffer r := by
  induction h with
  | refl => exact Shape.method
  | tail _ hstep ih => exact ih.next hstep

end HttpRequest
end EpollHttp
