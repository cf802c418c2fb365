import EpollHttp.ExecutorData
import EpollHttp.HttpRequest.Session
import EpollHttp.Lib.Coupled

/-
Data of connections that nobody can tell apart.

What a connection leaves behind in its place is the allocation of its ring buffer and the
allocation of its URL buffer.  Of the first only the unread bytes are ever looked at, and of the
second the string of a finished request.
-/

namespace EpollHttp

open CString

/-! ## Ring buffers -/

namespace TransferRingBuffer

/-- The same bytes are unread at the same places. -/
structure SameUnread (b b' : TransferRingBuffer) : Prop where
  wellFormed : b.WellFormed
  wellFormed' : b'.WellFormed
  readHead : b'.readHead = b.readHead
  writeHead : b'.writeHead = b.writeHead
  bufSize : b'.bufSize = b.bufSize
  unread : b'.unread = b.unread

def Alike (b b' : TransferRingBuffer) : Prop := b' = b ∨ b.SameUnread b'

section
variable {b b' : TransferRingBuffer} {w : Window}

theorem Alike.refl (b : TransferRingBuffer) : b.Alike b := Or.inl rfl

theorem unread_clear (b : TransferRingBuffer) : b.clear.unread = [] := by
  rw [unread_of_le (Nat.le_refl 0 : b.clear.readHead ≤ b.clear.writeHead)]
  simp [slice, clear]

theorem Alike.clear (h : b.Alike b') : b.clear.Alike b'.clear := by
  rcases h with rfl | h
  · exact .refl _
  · have hr := h.wellFormed.readHead
    have hr' := h.wellFormed'.readHead
    refine Or.inr ⟨⟨show 0 < b.bufSize by omega, Nat.zero_le _⟩,
      ⟨show 0 < b'.bufSize by omega, Nat.zero_le _⟩, rfl, rfl, h.bufSize, ?_⟩
    rw [unread_clear, unread_clear]

/-- Buffers that are set up are alike, whatever they were. -/
theorem Alike.init (b b' : TransferRingBuffer) {memory : Bytes} (hpos : 0 < memory.length) :
    (b.init memory).Alike (b'.init memory) := by
  have hsize : ∀ x : TransferRingBuffer, (x.init memory).bufSize = memory.length := by
    intro x
    unfold TransferRingBuffer.init bufSize
    split
    · rfl
    · rename_i h
      exact (not_not.mp h).symm
  have hformed : ∀ x : TransferRingBuffer, (x.init memory).WellFormed := by
    intro x
    refine ⟨?_, Nat.zero_le _⟩
    rw [hsize]
    exact hpos
  refine Or.inr ⟨hformed b, hformed b', rfl, rfl, (hsize b').trans (hsize b).symm, ?_⟩
  exact (unread_clear (b'.init memory)).trans (unread_clear (b.init memory)).symm

/-- The window of the first buffer may be written, unless the buffers are the same. -/
def Alike.Writable (b b' : TransferRingBuffer) (w : Window) : Prop := b' = b ∨ b.WriteWindow w

theorem SameUnread.writeWindow (h : b.SameUnread b') : b'.writeWindow = b.writeWindow := by
  unfold TransferRingBuffer.writeWindow writeSize
  rw [h.readHead, h.writeHead, h.bufSize]

theorem SameUnread.startWrite (h : b.SameUnread b') :
    b'.startWrite.1 = b.startWrite.1 ∧ b'.startWrite.2.writeHead = b.startWrite.2.writeHead := by
  unfold TransferRingBuffer.startWrite
  rw [h.writeHead, h.bufSize, h.readHead]
  split
  · split
    · exact ⟨rfl, h.writeHead⟩
    · refine ⟨?_, rfl⟩
      unfold TransferRingBuffer.writeWindow writeSize
      dsimp only
      rw [show TransferRingBuffer.bufSize { b' with readHead := b.readHead, writeHead := 0 } =
        TransferRingBuffer.bufSize { b with writeHead := 0 } from h.bufSize]
  · exact ⟨h.writeWindow, h.writeHead⟩

theorem Alike.startWrite (h : b.Alike b') : ∃ window c c', b.startWrite = (window, c) ∧
    b'.startWrite = (window, c') ∧ c.Alike c' ∧ ∀ w, window = some w → Alike.Writable c c' w := by
  rcases h with rfl | h
  · exact ⟨_, _, _, rfl, rfl, .refl _, fun _ _ => Or.inl rfl⟩
  · obtain ⟨hfst, hwrite⟩ := h.startWrite
    obtain ⟨hwf, hunread, hbuf, hread, _⟩ := startWrite_snd h.wellFormed
    obtain ⟨hwf', hunread', hbuf', hread', _⟩ := startWrite_snd h.wellFormed'
    refine ⟨b.startWrite.1, b.startWrite.2, b'.startWrite.2, rfl, Prod.ext hfst rfl, Or.inr
      ⟨hwf, hwf', ?_, hwrite, ?_, ?_⟩, fun w hw => Or.inr (startWrite_some h.wellFormed hw)⟩
    · rw [hread', hread, h.readHead]
    · unfold bufSize
      rw [hbuf', hbuf]
      exact h.bufSize
    · rw [hunread', hunread, h.unread]

/-- Bytes are stored through the window and handed over, with others behind them that are not. -/
theorem Alike.filled (h : b.Alike b') (hw : Alike.Writable b b' w) {bytes tail : Bytes}
    (hlen : bytes.length + tail.length ≤ w.size) :
    ((b.fill w.start (bytes ++ tail)).endWrite bytes.length).Alike
      ((b'.fill w.start (bytes ++ tail)).endWrite bytes.length) := by
  rcases h with rfl | h
  · exact .refl _
  rcases hw with rfl | hw
  · exact .refl _
  have hw' : b'.WriteWindow w := by
    refine ⟨hw.start.trans h.writeHead.symm, hw.pos, ?_, ?_⟩
    · rw [h.bufSize]
      exact hw.inside
    · rw [h.writeHead, h.readHead]
      exact hw.free
  obtain ⟨hread, hwrite, hsize⟩ := fill_heads b w.start (bytes ++ tail)
  obtain ⟨hread', hwrite', hsize'⟩ := fill_heads b' w.start (bytes ++ tail)
  obtain ⟨hwf, hunread⟩ := fill_append_endWrite h.wellFormed hw hlen
  obtain ⟨hwf', hunread'⟩ := fill_append_endWrite h.wellFormed' hw' hlen
  refine Or.inr ⟨hwf, hwf', hread'.trans (h.readHead.trans hread.symm), ?_,
    hsize'.trans (h.bufSize.trans hsize.symm), ?_⟩
  · show (b'.fill w.start (bytes ++ tail)).writeHead + _ =
      (b.fill w.start (bytes ++ tail)).writeHead + _
    rw [hwrite', hwrite, h.writeHead]
  · rw [hunread', hunread, h.unread]

theorem Alike.filledAll (h : b.Alike b') (hw : Alike.Writable b b' w) {bytes : Bytes}
    (hlen : bytes.length ≤ w.size) :
    ((b.fill w.start bytes).endWrite bytes.length).Alike
      ((b'.fill w.start bytes).endWrite bytes.length) := by
  have hall : bytes.length + ([] : Bytes).length ≤ w.size := hlen
  have hfilled := h.filled hw hall
  rwa [List.append_nil] at hfilled

theorem SameUnread.startRead (h : b.SameUnread b') : b'.startRead = b.startRead := by
  unfold TransferRingBuffer.startRead readSize
  rw [h.readHead, h.writeHead, h.bufSize]

theorem Alike.startRead (h : b.Alike b') : b'.startRead = b.startRead := by
  rcases h with rfl | h
  · rfl
  · exact h.startRead

theorem Alike.readAvailable (h : b.Alike b') : b'.readAvailable = b.readAvailable := by
  unfold TransferRingBuffer.readAvailable
  rw [h.startRead]

theorem slice_length_le (b : TransferRingBuffer) (w : Window) :
    (b.slice w.start (w.start + w.size)).length ≤ w.size := by
  unfold TransferRingBuffer.slice
  rw [List.length_take]
  omega

/-- The window shows the same bytes. -/
theorem Alike.slice (h : b.Alike b') (hw : b.startRead = some w) :
    b'.slice w.start (w.start + w.size) = b.slice w.start (w.start + w.size) := by
  rcases h with rfl | h
  · rfl
  · have hread := startRead_some h.wellFormed hw
    have hread' := startRead_some h.wellFormed' (h.startRead.trans hw)
    rw [hread.slice_eq h.wellFormed (Nat.le_refl _), hread'.slice_eq h.wellFormed' (Nat.le_refl _),
      h.unread]

theorem Alike.endRead (h : b.Alike b') (hw : b.startRead = some w) {k : Nat} (hk : k ≤ w.size) :
    (b.endRead k).Alike (b'.endRead k) := by
  rcases h with rfl | h
  · exact .refl _
  · have hread := startRead_some h.wellFormed hw
    have hread' := startRead_some h.wellFormed' (h.startRead.trans hw)
    refine Or.inr ⟨endRead_wellFormed h.wellFormed hread hk,
      endRead_wellFormed h.wellFormed' hread' hk,
      ?_, ?_, ?_, ?_⟩
    · unfold TransferRingBuffer.endRead
      rw [h.readHead, h.bufSize]
      split <;> rfl
    · unfold TransferRingBuffer.endRead
      rw [h.readHead, h.bufSize, h.writeHead]
      split <;> rfl
    · unfold TransferRingBuffer.endRead
      rw [h.readHead, h.bufSize]
      split <;> exact h.bufSize
    · rw [endRead_unread h.wellFormed hread hk, endRead_unread h.wellFormed' hread' hk, h.unread]

end

end TransferRingBuffer

/-! ## Requests -/

namespace HttpRequest

def withUrlBuffer (r : HttpRequest) (urlBuffer : Bytes) : HttpRequest :=
  { r with urlBuffer := urlBuffer }

def Alike (r r' : HttpRequest) : Prop :=
  ∃ urlBuffer, r' = r.withUrlBuffer urlBuffer ∧
    (r.state = .finishOk → cString urlBuffer = cString r.urlBuffer)

section
variable (r : HttpRequest) (urlBuffer : Bytes)

@[simp] theorem withUrlBuffer_state : (r.withUrlBuffer urlBuffer).state = r.state := rfl

@[simp] theorem withUrlBuffer_urlBuffer : (r.withUrlBuffer urlBuffer).urlBuffer = urlBuffer := rfl

@[simp] theorem withUrlBuffer_urlLength :
    (r.withUrlBuffer urlBuffer).urlLength = r.urlLength := rfl

@[simp] theorem withUrlBuffer_urlBytes : (r.withUrlBuffer urlBuffer).urlBytes = r.urlBytes := rfl

end

section
variable {r r' : HttpRequest} {urlBuffer : Bytes}

theorem Alike.refl (r : HttpRequest) : r.Alike r := ⟨r.urlBuffer, rfl, fun _ => rfl⟩

theorem Alike.reset (r r' : HttpRequest) : r.reset.Alike r'.reset :=
  ⟨r'.urlBuffer, rfl, fun h => nomatch h⟩

theorem Alike.getUrl (h : r.Alike r') : r'.getUrl = r.getUrl := by
  obtain ⟨urlBuffer, rfl, hurl⟩ := h
  unfold HttpRequest.getUrl
  rw [withUrlBuffer_state, withUrlBuffer_urlBuffer]
  split
  · rfl
  · rename_i hstate
    rw [hurl (not_not.mp hstate)]

theorem Alike.getHeaderValue (h : r.Alike r') (key : Bytes) :
    r'.getHeaderValue key = r.getHeaderValue key := by
  obtain ⟨_, rfl, _⟩ := h
  rfl

theorem Alike.getIfModifiedSince (h : r.Alike r') (strptime : Bytes → Option Int) :
    r'.getIfModifiedSince strptime = r.getIfModifiedSince strptime := by
  obtain ⟨_, rfl, _⟩ := h
  rfl

theorem Alike.isUrlPrefix (h : r.Alike r') (front : Bytes) :
    r'.isUrlPrefix front = r.isUrlPrefix front := by
  obtain ⟨urlBuffer, rfl, hurl⟩ := h
  unfold HttpRequest.isUrlPrefix
  rw [withUrlBuffer_state, withUrlBuffer_urlBuffer]
  split
  · rfl
  · rename_i hstate
    rw [hurl (not_not.mp hstate)]

/-! ## Parsing -/

/-- A round does not look at the URL buffer. -/
theorem iteration_withUrlBuffer (r : HttpRequest) (urlBuffer : Bytes) :
    (r.withUrlBuffer urlBuffer).iteration =
      (r.iteration.1.withUrlBuffer urlBuffer, r.iteration.2) := by
  unfold iteration
  rw [withUrlBuffer_state]
  cases r.state with
  | method =>
    unfold iterMethod
    rw [show (r.withUrlBuffer urlBuffer).readMethod = r.readMethod from rfl]
    cases r.readMethod <;> rfl
  | spaceAfterMethod =>
    unfold iterSpaceAfterMethod
    rw [show (r.withUrlBuffer urlBuffer).readSpaces = r.readSpaces from rfl]
    cases r.readSpaces <;> rfl
  | url =>
    unfold iterUrl
    rw [show (r.withUrlBuffer urlBuffer).readUrl = r.readUrl from rfl]
    cases r.readUrl <;> rfl
  | urlParameters =>
    unfold iterUrlParameters
    rw [show (r.withUrlBuffer urlBuffer).readUrlParameters = r.readUrlParameters from rfl]
    cases r.readUrlParameters <;> rfl
  | spaceAfterUrl =>
    unfold iterSpaceAfterUrl
    rw [show (r.withUrlBuffer urlBuffer).readToNextLine = r.readToNextLine from rfl]
    cases r.readToNextLine <;> rfl
  | headerKey =>
    unfold iterHeaderKey
    rw [show (r.withUrlBuffer urlBuffer).readHeaderKey = r.readHeaderKey from rfl]
    cases r.readHeaderKey <;> rfl
  | headerSpace =>
    unfold iterHeaderSpace
    rw [show (r.withUrlBuffer urlBuffer).readHeaderSpace = r.readHeaderSpace from rfl]
    cases r.readHeaderSpace <;> rfl
  | headerValue =>
    unfold iterHeaderValue
    rw [show (r.withUrlBuffer urlBuffer).readHeaderValue = r.readHeaderValue from rfl]
    cases r.readHeaderValue with
    | ok length =>
      dsimp only
      rw [show (r.withUrlBuffer urlBuffer).fieldBytes = r.fieldBytes from rfl,
        show (r.withUrlBuffer urlBuffer).curKey = r.curKey from rfl]
      split
      · split <;> rfl
      · rfl
    | _ => rfl
  | headerLineBreak =>
    unfold iterHeaderLineBreak
    rw [show (r.withUrlBuffer urlBuffer).readHeaderLineBreak = r.readHeaderLineBreak from rfl]
    cases r.readHeaderLineBreak with
    | endOfHeaders length =>
      dsimp only
      rw [show (r.withUrlBuffer urlBuffer).contentLength = r.contentLength from rfl]
      split <;> rfl
    | _ => rfl
  | content =>
    unfold iterContent
    rw [show (r.withUrlBuffer urlBuffer).contentLength = r.contentLength from rfl,
      show (r.withUrlBuffer urlBuffer).size = r.size from rfl,
      show (r.withUrlBuffer urlBuffer).cur = r.cur from rfl]
    by_cases hall : r.contentLength ≤ (r.size : Int) - r.cur
    · rw [if_pos hall, if_pos hall]
      rfl
    · rw [if_neg hall, if_neg hall]
  | finishOk => rfl
  | invalid => rfl

theorem parseInternal_withUrlBuffer (fuel : Nat) (r : HttpRequest) (urlBuffer : Bytes) :
    parseInternal fuel (r.withUrlBuffer urlBuffer) =
      (parseInternal fuel r).map (fun x => (x.1, x.2.withUrlBuffer urlBuffer)) := by
  induction fuel generalizing r with
  | zero => rfl
  | succ fuel ih =>
    unfold parseInternal
    rw [iteration_withUrlBuffer]
    obtain ⟨r', result⟩ := r.iteration
    cases result with
    | none => exact ih r'
    | some result => rfl

/-- Behind a verdict other than `finishOk` the request is not finished. -/
theorem parseInternal_unfinished {fuel : Nat} {result : ParseResult}
    (h : parseInternal fuel r = some (result, r')) (hresult : result ≠ .finishOk) :
    r'.state ≠ .finishOk := by
  obtain ⟨last, _, hlast⟩ := parseInternal_some h
  intro hstate
  rcases iteration_returns hlast with ⟨rfl, _⟩ | ⟨hvalue, _, headers, rfl⟩ | ⟨hok, _⟩ | ⟨hok, _⟩
  · unfold iteration at hlast
    rw [hstate] at hlast
    exact hresult (Option.some.inj (Prod.mk.inj hlast).2).symm
  · rw [show ({ last with headers := headers } : HttpRequest).state = last.state from rfl,
      hvalue] at hstate
    cases hstate
  · exact hresult hok
  · exact hresult hok

/-- The URL is decoded into the buffer anew. -/
theorem postParse_withUrlBuffer (r : HttpRequest) (urlBuffer : Bytes) :
    (r.withUrlBuffer urlBuffer).postParse.1 = r.postParse.1 ∧
      r.postParse.2.Alike (r.withUrlBuffer urlBuffer).postParse.2 := by
  by_cases hdecode : r.state = .finishOk ∧ 0 < r.urlLength ∧ (percentDecode r.urlBytes).1 = true
  · obtain ⟨hstate, hlength, htrue⟩ := hdecode
    have hstored : percentDecode r.urlBytes = (true, (percentDecode r.urlBytes).2) :=
      Prod.ext htrue rfl
    obtain ⟨buffer, heq, hurl⟩ := decodeUrl_stored hstate hlength hstored
    obtain ⟨buffer', heq', hurl'⟩ :=
      decodeUrl_stored (r := r.withUrlBuffer urlBuffer) hstate hlength hstored
    have hsame := hurl'.trans hurl.symm
    unfold postParse checkUrl checkUrlBuffer
    rw [heq, heq']
    dsimp only
    rw [hsame]
    split
    · exact ⟨rfl, buffer', rfl, fun _ => hsame⟩
    · exact ⟨rfl, buffer', rfl, fun hinvalid => nomatch hinvalid⟩
  · have hfailed : ∀ u, (r.withUrlBuffer u).decodeUrl.1 = false := by
      intro u
      by_cases hstate : r.state = .finishOk
      · refine decodeUrl_failed ?_
        rw [withUrlBuffer_urlLength, withUrlBuffer_urlBytes]
        by_cases hlength : r.urlLength = 0
        · exact Or.inl hlength
        · refine Or.inr (Bool.eq_false_iff.mpr (fun htrue => hdecode ⟨hstate, ?_, htrue⟩))
          omega
      · unfold decodeUrl
        rw [withUrlBuffer_state, if_pos hstate]
    have hrejected : ∀ u, ∃ buffer, (r.withUrlBuffer u).postParse =
        (.finishInvalid, { r with urlBuffer := buffer, state := .invalid }) := by
      intro u
      obtain ⟨buffer, heq⟩ := (r.withUrlBuffer u).decodeUrl_eq
      refine ⟨buffer, ?_⟩
      unfold postParse
      rw [show (r.withUrlBuffer u).decodeUrl = (false, { r with urlBuffer := buffer }) from
        Prod.ext (hfailed u) heq]
    obtain ⟨buffer, heq⟩ := hrejected r.urlBuffer
    obtain ⟨buffer', heq'⟩ := hrejected urlBuffer
    rw [heq', show r.postParse = _ from heq]
    exact ⟨rfl, buffer', rfl, fun hinvalid => nomatch hinvalid⟩

theorem finish_withUrlBuffer {x : ParseResult × HttpRequest}
    (hx : x.1 ≠ .finishOk → x.2.state ≠ .finishOk) (urlBuffer : Bytes) :
    (finish (x.1, x.2.withUrlBuffer urlBuffer)).1 = (finish x).1 ∧
      (finish x).2.Alike (finish (x.1, x.2.withUrlBuffer urlBuffer)).2 := by
  obtain ⟨result, r⟩ := x
  cases result with
  | finishOk => exact postParse_withUrlBuffer r urlBuffer
  | finishInvalid =>
    exact ⟨rfl, urlBuffer, rfl, fun hstate => absurd hstate (hx (fun hok => nomatch hok))⟩
  | needMoreData =>
    exact ⟨rfl, urlBuffer, rfl, fun hstate => absurd hstate (hx (fun hok => nomatch hok))⟩

/-- The parser says the same of requests that are alike, and leaves them alike. -/
theorem Alike.parse (h : r.Alike r') (data : Bytes) :
    Program.Matched Alike (r.parse data) (r'.parse data) := by
  obtain ⟨urlBuffer, rfl, _⟩ := h
  unfold HttpRequest.parse
  rw [parseFuel_eq, parseFuel_eq]
  rw [show ({ r.withUrlBuffer urlBuffer with data := data } : HttpRequest) =
    ({ r with data := data } : HttpRequest).withUrlBuffer urlBuffer from rfl,
    parseInternal_withUrlBuffer]
  cases hparse : parseInternal (roundBound data) { r with data := data } with
  | none => exact .failed
  | some x =>
    obtain ⟨hresult, halike⟩ :=
      finish_withUrlBuffer (parseInternal_unfinished hparse) urlBuffer
    have hsplit : finish (x.1, x.2.withUrlBuffer urlBuffer) =
        ((finish x).1, (finish (x.1, x.2.withUrlBuffer urlBuffer)).2) := Prod.ext hresult rfl
    show Program.Matched Alike (some (finish x)) (some (finish (x.1, x.2.withUrlBuffer urlBuffer)))
    rw [hsplit]
    exact .returned _ _ _ halike

end

end HttpRequest

/-! ## Data of connections -/

/-- Everything else is the same; where `p` holds, the buffers and the requests are alike too. -/
inductive ExecutorData.Alike (p : Prop) (d : ExecutorData) : ExecutorData → Prop
  | intro (buffer : TransferRingBuffer) (request : HttpRequest)
      (h : p → d.buffer.Alike buffer ∧ d.request.Alike request) :
      ExecutorData.Alike p d { d with buffer := buffer, request := request }

namespace ExecutorData

theorem Alike.refl (p : Prop) (d : ExecutorData) : Alike p d d :=
  .intro d.buffer d.request (fun _ => ⟨.refl _, .refl _⟩)

theorem Alike.mono {p q : Prop} {d d' : ExecutorData} (h : Alike p d d') (hpq : q → p) :
    Alike q d d' := by
  cases h with
  | intro buffer request h => exact .intro buffer request (fun hq => h (hpq hq))

end ExecutorData
end EpollHttp
