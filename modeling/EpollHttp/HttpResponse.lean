import EpollHttp.Lib.CString

/-
The response headers that the file executors send.

The texts go through `snprintf`, so a text that does not fit with its terminator is an error.
-/

namespace EpollHttp

inductive HttpCode
  | ok
  | notModified
  | notFound
  deriving DecidableEq, Repr

namespace HttpResponse

/-- The bytes of a text in ASCII. -/
def ascii (text : String) : Bytes := text.toList.map (fun c => UInt8.ofNat c.toNat)

/-- The text when it fits into `size` bytes with its terminator. -/
def printed (text : Bytes) (size : Nat) : Option Bytes :=
  if size ≤ text.length then none else some text

def ok200 (size : Nat) (contentLength : Int) (lastModified : Bytes) : Option Bytes :=
  printed
    (ascii "HTTP/1.1 200 Ok\r\nContent-Length: " ++ ascii (toString contentLength) ++
      ascii "\r\nLast-Modified: " ++ lastModified ++ ascii "\r\nConnection: close\r\n\r\n") size

def notFoundHtml : Bytes :=
  ascii ("<html><head><title>404 Not Found</title></head><body><h1>Not Found</h1>" ++
    "<p>The requested URL was not found on this server.</p></body></html>")

def notFound404 (size : Nat) : Option Bytes :=
  printed
    (ascii "HTTP/1.1 404 Not Found\r\nContent-Length: " ++
      ascii (toString notFoundHtml.length) ++ ascii "\r\nConnection: close\r\n\r\n" ++
      notFoundHtml) size

def notModified304 (size : Nat) : Option Bytes :=
  printed (ascii "HTTP/1.1 304 Not Modified\r\nConnection: close\r\n\r\n") size

end HttpResponse
end EpollHttp
