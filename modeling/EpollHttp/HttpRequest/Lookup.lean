import EpollHttp.HttpRequest.Parse

/-
What the executors ask a finished request for: a header value and the prefix of its URL.
-/

namespace EpollHttp
namespace HttpRequest

open CString

/-- The value of the first header whose name, compared over its own length, is that of `key`. -/
def getHeaderValue (r : HttpRequest) (key : Bytes) : Option Bytes :=
  if r.state ≠ .finishOk then none
  else
    (r.headers.find? (fun head =>
        strncaseEq head.key.length key (r.data.drop head.key.start))).map
      (fun head => r.fieldBytes head.value)

/-- `"If-Modified-Since"` -/
def ifModifiedSinceName : Bytes :=
  [73, 102, 45, 77, 111, 100, 105, 102, 105, 101, 100, 45, 83, 105, 110, 99, 101]

/-- `strptime` stands for the library call with the format of RFC 1123 and the `timegm` that
follows it. -/
def getIfModifiedSince (r : HttpRequest) (strptime : Bytes → Option Int) : Int :=
  match r.getHeaderValue ifModifiedSinceName with
  | some value => if 100 < value.length then 0 else (strptime (cString value)).getD 0
  | none => 0

/-- The loop that compares the URL with the prefix from the first byte that is not a slash, and
the tests behind it.  `u` and `p` are the last bytes gone past. -/
def comparePrefix : Option UInt8 → Option UInt8 → Bytes → Bytes → Bool
  | _, _, uc :: url, pc :: rest =>
    if uc = pc then comparePrefix (some uc) (some pc) url rest else pc == slash && uc == 0
  | u, p, url, [] =>
    url.head? == none || url.head? == some slash || (p == some slash && u == some slash)
  | _, _, [], pc :: _ => pc == slash

/-- The number of slashes in front decides whether there is a byte in front of the first one that
is compared. -/
def isUrlPrefix (r : HttpRequest) (front : Bytes) : Bool :=
  if r.state ≠ .finishOk then false
  else
    let url := cString r.urlBuffer
    let front := cString front
    comparePrefix (url.takeWhile (· == slash)).getLast? (front.takeWhile (· == slash)).getLast?
      (url.dropWhile (· == slash)) (front.dropWhile (· == slash))

end HttpRequest
end EpollHttp
