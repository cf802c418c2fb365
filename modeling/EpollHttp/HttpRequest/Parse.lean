import EpollHttp.HttpRequest.Url

/-
The resumable request parser: `HttpRequest` with its nine readers and the state
machine of `parseInternal`.

A reader looks at the visible bytes from `cur` on, `rest`.  Its loops skip a class
of symbols, so the index they stop at is the length of a `takeWhile` and the symbol
they stop at heads the `dropWhile`.  The out-parameter `length` is the argument of
the result that assigns it; `readToNextLine` leaves it alone at `endOfHeaders`.

`data` is the visible part of the buffer, so `size` is its length.
-/

namespace EpollHttp

open CString

inductive ParseResult
  | finishOk
  | finishInvalid
  | needMoreData
  deriving DecidableEq, Repr

namespace HttpRequest

inductive State
  | method
  | spaceAfterMethod
  | url
  | urlParameters
  | spaceAfterUrl
  | headerKey
  | headerSpace
  | headerValue
  | headerLineBreak
  | finishOk
  | content
  | invalid
  deriving DecidableEq, Repr

inductive ReadResult
  | invalid
  | needMoreData
  | ok (length : Nat)
  | question (length : Nat)
  | endOfHeaders (length : Option Nat)
  deriving DecidableEq, Repr

structure Field where
  start : Nat := 0
  length : Nat := 0
  deriving DecidableEq, Repr

structure Header where
  key : Field
  value : Field
  deriving DecidableEq, Repr

end HttpRequest

open HttpRequest in
structure HttpRequest where
  cur : Nat := 0
  data : Bytes := []
  state : State := .method
  methodStart : Nat := 0
  methodLength : Nat := 0
  urlStart : Nat := 0
  urlLength : Nat := 0
  urlParametersStart : Nat := 0
  urlParametersLength : Nat := 0
  contentStart : Nat := 0
  contentLength : Int := 0
  curKey : Field := {}
  headers : List Header := []
  /-- The bytes of the allocation, none for a null pointer. -/
  urlBuffer : Bytes := []
  deriving DecidableEq, Repr

namespace HttpRequest

def size (r : HttpRequest) : Nat := r.data.length

def urlBufferSize (r : HttpRequest) : Nat := r.urlBuffer.length

/-- Everything but the URL buffer goes back to its initial value. -/
def reset (r : HttpRequest) : HttpRequest := { urlBuffer := r.urlBuffer }

/-- `length` bytes at `data + start`. -/
def bytesAt (r : HttpRequest) (start length : Nat) : Bytes :=
  (r.data.drop start).take length

def fieldBytes (r : HttpRequest) (f : Field) : Bytes := r.bytesAt f.start f.length

/-- The visible bytes the readers scan. -/
def rest (r : HttpRequest) : Bytes := r.data.drop r.cur

/-! ## Readers -/

/-- The loop common to the readers: skip the symbols of a class, ask for more data at
the end of what is visible, and answer by the symbol the loop stopped at and the
number of symbols skipped. -/
def scan (skip : UInt8 → Bool) (stop : UInt8 → Nat → ReadResult) (rest : Bytes) :
    ReadResult :=
  match rest.dropWhile skip with
  | [] => .needMoreData
  | c :: _ => stop c (rest.takeWhile skip).length

def readMethod (r : HttpRequest) : ReadResult :=
  scan isUpper (fun c i => if c = space then .ok i else .invalid) r.rest

def readSpaces (r : HttpRequest) : ReadResult :=
  scan (· == space) (fun c i => if isBreak c then .invalid else .ok i) r.rest

def readUrl (r : HttpRequest) : ReadResult :=
  scan readUrlSymbols
    (fun c i => if c = space then .ok i else if c = question then .question i else .invalid)
    r.rest

def readUrlParameters (r : HttpRequest) : ReadResult :=
  scan (· != space) (fun c i => if isBreak c then .invalid else .ok i) r.rest

/-- `lineBreakCounter` after a run of line-break symbols. -/
def lineBreakCounter (run : Bytes) : Nat := run.count lf

def readToNextLine (r : HttpRequest) : ReadResult :=
  match r.rest.dropWhile (!isBreak ·) with
  | [] => .needMoreData
  | c :: line =>
    if 1 < lineBreakCounter ((c :: line).takeWhile isBreak) then .endOfHeaders none
    else
      scan isBreak (fun _ i => .ok ((r.rest.takeWhile (!isBreak ·)).length + i)) (c :: line)

def readHeaderKey (r : HttpRequest) : ReadResult :=
  scan readHeaderKeySymbols (fun c i => if c = colon then .ok i else .invalid) r.rest

def isHeaderSpace (c : UInt8) : Bool := c == colon || c == space

def readHeaderSpace (r : HttpRequest) : ReadResult :=
  scan isHeaderSpace (fun c i => if isBreak c then .invalid else .ok i) r.rest

def readHeaderValue (r : HttpRequest) : ReadResult :=
  scan (!isBreak ·) (fun _ i => .ok i) r.rest

def readHeaderLineBreak (r : HttpRequest) : ReadResult :=
  if 1 < lineBreakCounter (r.rest.takeWhile isBreak) then
    .endOfHeaders (some (r.rest.takeWhile isBreak).length)
  else scan isBreak (fun _ i => .ok i) r.rest

/-! ## The state machine -/

/-- `"Content-Length"` -/
def contentLengthName : Bytes :=
  [67, 111, 110, 116, 101, 110, 116, 45, 76, 101, 110, 103, 116, 104]

/-- `BUF_CHARS` of the Content-Length branch. -/
def bufChars : Nat := 30

/-- The name is compared over its own length only. -/
def namesContentLength (name : Bytes) : Bool :=
  strncaseEq name.length contentLengthName name

/-- What a returning iteration leaves behind and what it returns; `none` goes
round the loop again. -/
abbrev Iteration := HttpRequest × Option ParseResult

def iterMethod (r : HttpRequest) : Iteration :=
  match r.readMethod with
  | .ok length =>
    ({ r with
        methodStart := r.cur, methodLength := length,
        cur := r.cur + length, state := .spaceAfterMethod }, none)
  | .needMoreData => (r, some .needMoreData)
  | _ => (r, some .finishInvalid)

def iterSpaceAfterMethod (r : HttpRequest) : Iteration :=
  match r.readSpaces with
  | .ok length => ({ r with cur := r.cur + length, state := .url }, none)
  | .needMoreData => (r, some .needMoreData)
  | _ => (r, some .finishInvalid)

def iterUrl (r : HttpRequest) : Iteration :=
  match r.readUrl with
  | .ok length =>
    ({ r with
        urlStart := r.cur, urlLength := length,
        cur := r.cur + length, state := .spaceAfterUrl }, none)
  | .question length =>
    ({ r with
        urlStart := r.cur, urlLength := length,
        cur := r.cur + length, state := .urlParameters }, none)
  | .needMoreData => (r, some .needMoreData)
  | _ => (r, some .finishInvalid)

/-- Only `ok` is handled: every other answer of the reader falls out of the switch
and the loop goes round with nothing changed. -/
def iterUrlParameters (r : HttpRequest) : Iteration :=
  match r.readUrlParameters with
  | .ok length =>
    ({ r with
        urlParametersStart := r.cur, urlParametersLength := length,
        cur := r.cur + length, state := .spaceAfterUrl }, none)
  | _ => (r, none)

def iterSpaceAfterUrl (r : HttpRequest) : Iteration :=
  match r.readToNextLine with
  | .ok length => ({ r with cur := r.cur + length, state := .headerKey }, none)
  | .needMoreData => (r, some .needMoreData)
  | _ => (r, some .finishInvalid)

def iterHeaderKey (r : HttpRequest) : Iteration :=
  match r.readHeaderKey with
  | .ok length =>
    ({ r with
        curKey := { start := r.cur, length := length },
        cur := r.cur + length, state := .headerSpace }, none)
  | .needMoreData => (r, some .needMoreData)
  | _ => (r, some .finishInvalid)

def iterHeaderSpace (r : HttpRequest) : Iteration :=
  match r.readHeaderSpace with
  | .ok length => ({ r with cur := r.cur + length, state := .headerValue }, none)
  | .needMoreData => (r, some .needMoreData)
  | _ => (r, some .finishInvalid)

def iterHeaderValue (r : HttpRequest) : Iteration :=
  match r.readHeaderValue with
  | .ok length =>
    let value : Field := { start := r.cur, length := length }
    let pushed := { r with headers := r.headers ++ [{ key := r.curKey, value := value }] }
    if namesContentLength (r.fieldBytes r.curKey) then
      if bufChars < length then (pushed, some .finishInvalid)
      else
        ({ pushed with
            contentLength := atoi (r.fieldBytes value),
            cur := r.cur + length, state := .headerLineBreak }, none)
    else
      ({ pushed with cur := r.cur + length, state := .headerLineBreak }, none)
  | .needMoreData => (r, some .needMoreData)
  | _ => (r, some .finishInvalid)

def iterHeaderLineBreak (r : HttpRequest) : Iteration :=
  match r.readHeaderLineBreak with
  | .ok length => ({ r with cur := r.cur + length, state := .headerKey }, none)
  | .endOfHeaders length =>
    if r.contentLength = 0 then ({ r with state := .finishOk }, some .finishOk)
    else ({ r with cur := r.cur + length.getD 0, state := .content }, none)
  | .needMoreData => (r, some .needMoreData)
  | _ => (r, some .finishInvalid)

def iterContent (r : HttpRequest) : Iteration :=
  if r.contentLength ≤ (r.size : Int) - r.cur then
    ({ r with contentStart := r.cur, state := .finishOk }, some .finishOk)
  else (r, some .needMoreData)

/-- One round of `while(true)`. -/
def iteration (r : HttpRequest) : Iteration :=
  match r.state with
  | .method => r.iterMethod
  | .spaceAfterMethod => r.iterSpaceAfterMethod
  | .url => r.iterUrl
  | .urlParameters => r.iterUrlParameters
  | .spaceAfterUrl => r.iterSpaceAfterUrl
  | .headerKey => r.iterHeaderKey
  | .headerSpace => r.iterHeaderSpace
  | .headerValue => r.iterHeaderValue
  | .headerLineBreak => r.iterHeaderLineBreak
  | .content => r.iterContent
  | .finishOk => (r, some .finishOk)
  | .invalid => (r, some .finishInvalid)

/-- The loop cut after `fuel` rounds; `none` has not returned yet. -/
def parseInternal : Nat → HttpRequest → Option (ParseResult × HttpRequest)
  | 0, _ => none
  | fuel + 1, r =>
    match r.iteration with
    | (r', some result) => some (result, r')
    | (r', none) => parseInternal fuel r'

/-- The URL buffer grows when the URL and its terminator do not fit. -/
def growUrlBuffer (r : HttpRequest) : HttpRequest :=
  if r.urlBufferSize < r.urlLength + 1 then
    { r with urlBuffer := List.replicate (r.urlLength + 1) 0 }
  else r

/-- Whether 0 is returned.  The terminator is stored only on success. -/
def decodeUrl (r : HttpRequest) : Bool × HttpRequest :=
  if r.state ≠ .finishOk then (false, r)
  else if 0 < r.urlLength then
    let r := r.growUrlBuffer
    match percentDecode (r.bytesAt r.urlStart r.urlLength) with
    | (true, stored) => (true, { r with urlBuffer := overwrite r.urlBuffer (stored ++ [0]) })
    | (false, stored) => (false, { r with urlBuffer := overwrite r.urlBuffer stored })
  else (false, r)

/-- Whether 0 is returned. -/
def checkUrl (r : HttpRequest) : Bool := checkUrlBuffer r.urlBuffer

def postParse (r : HttpRequest) : ParseResult × HttpRequest :=
  match r.decodeUrl with
  | (false, r) => (.finishInvalid, { r with state := .invalid })
  | (true, r) =>
    if r.checkUrl then (.finishOk, r) else (.finishInvalid, { r with state := .invalid })

/-- `parse(data, size)` with the loop cut after `fuel` rounds. -/
def parseFuel (fuel : Nat) (r : HttpRequest) (data : Bytes) :
    Option (ParseResult × HttpRequest) :=
  match parseInternal fuel { r with data := data } with
  | none => none
  | some (.finishOk, r') => some r'.postParse
  | some (result, r') => some (result, r')

/-- Twelve states at every position, and one round more. -/
def roundBound (data : Bytes) : Nat := 12 * (data.length + 1) + 1

/-- `parse(data, size)`; `none` when the loop does not return. -/
def parse (r : HttpRequest) (data : Bytes) : Option (ParseResult × HttpRequest) :=
  parseFuel (roundBound data) r data

/-- The C string `getUrl` points to, `none` for the null pointer. -/
def getUrl (r : HttpRequest) : Option Bytes :=
  if r.state ≠ .finishOk then none else some (cString r.urlBuffer)

end HttpRequest
end EpollHttp
