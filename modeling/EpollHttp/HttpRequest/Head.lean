import EpollHttp.HttpRequest.Rounds

/-
The grammar of a request head, and the parser states that belong to its prefixes.

The grammar is stated on the bytes alone.  Every state the parser visits on a
byte string before it returns is the state that belongs to one prefix of a head:
`Visits.shape` reads the tokens off the visited state, and the `round_` lemmas go the
other way and move the parser over a token that stands in the data.
-/

namespace EpollHttp
namespace HttpRequest

open CString

/-! ## Grammar -/

/-- Method, the spaces behind it, URL and URL parameters with their question mark. -/
structure Target where
  method : Bytes
  spaces : Bytes
  url : Bytes
  params : Bytes

namespace Target

def bytes (t : Target) : Bytes := t.method ++ (t.spaces ++ (t.url ++ t.params))

structure WellFormed (t : Target) : Prop where
  method : ∀ c ∈ t.method, isUpper c = true
  spaces_ne : t.spaces ≠ []
  spaces : ∀ c ∈ t.spaces, c = space
  url : ∀ c ∈ t.url, readUrlSymbols c = true
  params : t.params = [] ∨ ∃ q, t.params = question :: q
  params_space : ∀ c ∈ t.params, c ≠ space
  url_or_params : t.url = [] → t.params ≠ []

end Target

/-- A run of line-break symbols that ends one line and no more. -/
structure IsLineBreak (run : Bytes) : Prop where
  ne : run ≠ []
  breaks : ∀ c ∈ run, isBreak c = true
  one : lineBreakCounter run ≤ 1

/-- `tail` is the rest of the line from the space behind the target on. -/
structure RequestLine where
  target : Target
  tail : Bytes
  lineBreak : Bytes

namespace RequestLine

def bytes (l : RequestLine) : Bytes := l.target.bytes ++ (l.tail ++ l.lineBreak)

structure WellFormed (l : RequestLine) : Prop where
  target : l.target.WellFormed
  tail_head : l.tail.head? = some space
  tail : ∀ c ∈ l.tail, isBreak c = false
  lineBreak : IsLineBreak l.lineBreak

end RequestLine

/-- Name, the colons and spaces behind it, and value. -/
structure HeaderLine where
  key : Bytes
  sep : Bytes
  value : Bytes

namespace HeaderLine

def bytes (l : HeaderLine) : Bytes := l.key ++ (l.sep ++ l.value)

structure WellFormed (l : HeaderLine) : Prop where
  key : ∀ c ∈ l.key, readHeaderKeySymbols c = true
  sep_head : l.sep.head? = some colon
  sep : ∀ c ∈ l.sep, isHeaderSpace c = true
  value_ne : l.value ≠ []
  value_head : ∀ c, l.value.head? = some c → isHeaderSpace c = false
  value : ∀ c ∈ l.value, isBreak c = false
  short : namesContentLength l.key = true → l.value.length ≤ bufChars

end HeaderLine

/-- A header line and the line break behind it. -/
abbrev BrokenLine := HeaderLine × Bytes

def linesBytes (lines : List BrokenLine) : Bytes :=
  lines.flatMap (fun x => x.1.bytes ++ x.2)

/-- A request head up to the end of its last header value. -/
structure Head where
  requestLine : RequestLine
  lines : List BrokenLine
  last : HeaderLine

namespace Head

def bytes (h : Head) : Bytes :=
  h.requestLine.bytes ++ (linesBytes h.lines ++ h.last.bytes)

def headerLines (h : Head) : List HeaderLine := h.lines.map Prod.fst ++ [h.last]

/-- Every line whose name is taken for Content-Length sets the length again. -/
def declaredLength (acc : Int) (l : HeaderLine) : Int :=
  if namesContentLength l.key then atoi l.value else acc

def contentLength (h : Head) : Int := h.headerLines.foldl declaredLength 0

structure WellFormed (h : Head) : Prop where
  requestLine : h.requestLine.WellFormed
  lines : ∀ x ∈ h.lines, x.1.WellFormed ∧ IsLineBreak x.2
  last : h.last.WellFormed

end Head

/-- A run of line-break symbols that ends the head. -/
structure IsClosing (run : Bytes) : Prop where
  breaks : ∀ c ∈ run, isBreak c = true
  two : 1 < lineBreakCounter run

/-- The bytes are a head, the whole line-break run that closes it, and the rest. -/
structure ClosedHead (data : Bytes) (h : Head) (closing body : Bytes) : Prop where
  data_eq : data = h.bytes ++ (closing ++ body)
  head : h.WellFormed
  closing : IsClosing closing
  body : ∀ c, body.head? = some c → isBreak c = false

/-! ## Moving over a token -/

section
variable (r : HttpRequest)

def tookMethod (token : Bytes) : HttpRequest :=
  { r with
    methodStart := r.cur, methodLength := token.length,
    cur := r.cur + token.length, state := .spaceAfterMethod }

def tookSpaces (token : Bytes) : HttpRequest :=
  { r with cur := r.cur + token.length, state := .url }

/-- `next` is the state the symbol behind the URL selects. -/
def tookUrl (token : Bytes) (next : State) : HttpRequest :=
  { r with
    urlStart := r.cur, urlLength := token.length,
    cur := r.cur + token.length, state := next }

def tookUrlParameters (token : Bytes) : HttpRequest :=
  { r with
    urlParametersStart := r.cur, urlParametersLength := token.length,
    cur := r.cur + token.length, state := .spaceAfterUrl }

def tookLine (token : Bytes) : HttpRequest :=
  { r with cur := r.cur + token.length, state := .headerKey }

def tookKey (token : Bytes) : HttpRequest :=
  { r with
    curKey := { start := r.cur, length := token.length },
    cur := r.cur + token.length, state := .headerSpace }

def tookSep (token : Bytes) : HttpRequest :=
  { r with cur := r.cur + token.length, state := .headerValue }

/-- `key` is the name in front, which decides whether the value is the content
length. -/
def tookValue (key token : Bytes) : HttpRequest :=
  { r with
    headers := r.headers ++
      [{ key := r.curKey, value := { start := r.cur, length := token.length } }],
    contentLength := if namesContentLength key then atoi token else r.contentLength,
    cur := r.cur + token.length, state := .headerLineBreak }

def tookClosing (token : Bytes) : HttpRequest :=
  { r with cur := r.cur + token.length, state := .content }

def tookHeaderLine (l : HeaderLine) : HttpRequest :=
  ((r.tookKey l.key).tookSep l.sep).tookValue l.key l.value

end

/-! ## The states that belong to prefixes of a head -/

section
variable (data urlBuffer : Bytes)

def startState : HttpRequest := { data := data, urlBuffer := urlBuffer }

def afterSpaces (t : Target) : HttpRequest :=
  ((startState data urlBuffer).tookMethod t.method).tookSpaces t.spaces

def afterTarget (t : Target) : HttpRequest :=
  if t.params = [] then (afterSpaces data urlBuffer t).tookUrl t.url .spaceAfterUrl
  else ((afterSpaces data urlBuffer t).tookUrl t.url .urlParameters).tookUrlParameters t.params

def afterRequestLine (l : RequestLine) : HttpRequest :=
  (afterTarget data urlBuffer l.target).tookLine (l.tail ++ l.lineBreak)

def afterLines (l : RequestLine) (lines : List BrokenLine) : HttpRequest :=
  lines.foldl (fun r x => (r.tookHeaderLine x.1).tookLine x.2)
    (afterRequestLine data urlBuffer l)

def afterHead (h : Head) : HttpRequest :=
  (afterLines data urlBuffer h.requestLine h.lines).tookHeaderLine h.last

/-- The visited states by the prefix of a head that is behind `cur`. -/
inductive Shape : HttpRequest → Prop
  | method : Shape (startState data urlBuffer)
  | spaceAfterMethod (method tail : Bytes)
      (hdata : data = method ++ space :: tail)
      (hmethod : ∀ c ∈ method, isUpper c = true) :
      Shape ((startState data urlBuffer).tookMethod method)
  | url (t : Target) (c : UInt8) (tail : Bytes)
      (hdata : data = t.method ++ (t.spaces ++ c :: tail))
      (hmethod : ∀ c ∈ t.method, isUpper c = true) (hne : t.spaces ≠ [])
      (hspaces : ∀ c ∈ t.spaces, c = space) (hc : c ≠ space) (hbreak : isBreak c = false) :
      Shape (afterSpaces data urlBuffer t)
  | urlParameters (t : Target) (tail : Bytes)
      (hdata : data = t.method ++ (t.spaces ++ (t.url ++ question :: tail)))
      (hmethod : ∀ c ∈ t.method, isUpper c = true) (hne : t.spaces ≠ [])
      (hspaces : ∀ c ∈ t.spaces, c = space) (hurl : ∀ c ∈ t.url, readUrlSymbols c = true) :
      Shape ((afterSpaces data urlBuffer t).tookUrl t.url .urlParameters)
  | spaceAfterUrl (t : Target) (tail : Bytes) (hdata : data = t.bytes ++ space :: tail)
      (ht : t.WellFormed) : Shape (afterTarget data urlBuffer t)
  | headerKey (l : RequestLine) (lines : List BrokenLine) (c : UInt8) (tail : Bytes)
      (hdata : data = l.bytes ++ (linesBytes lines ++ c :: tail)) (hl : l.WellFormed)
      (hlines : ∀ x ∈ lines, x.1.WellFormed ∧ IsLineBreak x.2) (hc : isBreak c = false) :
      Shape (afterLines data urlBuffer l lines)
  | headerSpace (l : RequestLine) (lines : List BrokenLine) (key tail : Bytes)
      (hdata : data = l.bytes ++ (linesBytes lines ++ (key ++ colon :: tail)))
      (hl : l.WellFormed) (hlines : ∀ x ∈ lines, x.1.WellFormed ∧ IsLineBreak x.2)
      (hkey : ∀ c ∈ key, readHeaderKeySymbols c = true) :
      Shape ((afterLines data urlBuffer l lines).tookKey key)
  | headerValue (l : RequestLine) (lines : List BrokenLine) (key sep : Bytes) (c : UInt8)
      (tail : Bytes)
      (hdata : data = l.bytes ++ (linesBytes lines ++ (key ++ (sep ++ c :: tail))))
      (hl : l.WellFormed) (hlines : ∀ x ∈ lines, x.1.WellFormed ∧ IsLineBreak x.2)
      (hkey : ∀ c ∈ key, readHeaderKeySymbols c = true) (hhead : sep.head? = some colon)
      (hsep : ∀ c ∈ sep, isHeaderSpace c = true) (hc : isHeaderSpace c = false)
      (hbreak : isBreak c = false) :
      Shape (((afterLines data urlBuffer l lines).tookKey key).tookSep sep)
  | headerLineBreak (h : Head) (c : UInt8) (tail : Bytes) (hdata : data = h.bytes ++ c :: tail)
      (hh : h.WellFormed) (hc : isBreak c = true) : Shape (afterHead data urlBuffer h)
  | content (h : Head) (closing body : Bytes) (hh : ClosedHead data h closing body)
      (hne : (afterHead data urlBuffer h).contentLength ≠ 0) :
      Shape ((afterHead data urlBuffer h).tookClosing closing)

end

end HttpRequest
end EpollHttp
