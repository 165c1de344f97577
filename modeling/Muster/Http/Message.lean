/-
Requests and responses, and what may become of a request that is sent.
-/
import Muster.Http.Url

namespace Muster.Http

inductive Method where
  | get
  | put
  | delete
deriving DecidableEq, Repr

structure Request where
  method : Method
  url : Url
  body : String := ""
deriving DecidableEq, Repr

structure Response where
  status : Nat
  body : List UInt8 := []
  /-- The body breaks off before its promised end. -/
  truncated : Bool := false
deriving DecidableEq, Repr

/-- Why no response came. -/
inductive Failure where
  | timedOut
  /-- The request did not get through, or the answer did not come back. -/
  | unreachable (cause : String)
deriving DecidableEq, Repr

/-- A way to send requests in a world of state `ω`, each within a time if one is given. -/
abbrev Transport (ω : Type) :=
  Request → (within : Option Nat) → ω → Except Failure Response × ω

/-- What is said of a request that could not be sent. -/
def notSent (u : Url) : String := "error sending request for url (" ++ u.toText ++ ")"

/-- What is said of a text that is no web address. -/
def badUrl : String := "builder error"

/-- What is said of an address that no request can carry. -/
def unsendable (u : Url) : String := badUrl ++ " for url (" ++ u.toText ++ ")"

/-- A host without a network: no request gets through. -/
def noTransport : Transport Unit := fun r _ w => (.error (.unreachable (notSent r.url)), w)

/-! ## Status -/

def Response.isSuccess (r : Response) : Bool := 200 ≤ r.status && r.status < 300

def Response.isServerFault (r : Response) : Bool := 500 ≤ r.status && r.status < 600

/-- The phrases of the assigned status codes. -/
def phrases : List (Nat × String) := [
  (100, "Continue"), (101, "Switching Protocols"), (102, "Processing"), (200, "OK"),
  (201, "Created"), (202, "Accepted"), (203, "Non Authoritative Information"),
  (204, "No Content"), (205, "Reset Content"), (206, "Partial Content"), (207, "Multi-Status"),
  (208, "Already Reported"), (226, "IM Used"), (300, "Multiple Choices"),
  (301, "Moved Permanently"), (302, "Found"), (303, "See Other"), (304, "Not Modified"),
  (305, "Use Proxy"), (307, "Temporary Redirect"), (308, "Permanent Redirect"),
  (400, "Bad Request"), (401, "Unauthorized"), (402, "Payment Required"), (403, "Forbidden"),
  (404, "Not Found"), (405, "Method Not Allowed"), (406, "Not Acceptable"),
  (407, "Proxy Authentication Required"), (408, "Request Timeout"), (409, "Conflict"),
  (410, "Gone"), (411, "Length Required"), (412, "Precondition Failed"),
  (413, "Payload Too Large"), (414, "URI Too Long"), (415, "Unsupported Media Type"),
  (416, "Range Not Satisfiable"), (417, "Expectation Failed"), (418, "I'm a teapot"),
  (421, "Misdirected Request"), (422, "Unprocessable Entity"), (423, "Locked"),
  (424, "Failed Dependency"), (425, "Too Early"), (426, "Upgrade Required"),
  (428, "Precondition Required"), (429, "Too Many Requests"),
  (431, "Request Header Fields Too Large"), (451, "Unavailable For Legal Reasons"),
  (500, "Internal Server Error"), (501, "Not Implemented"), (502, "Bad Gateway"),
  (503, "Service Unavailable"), (504, "Gateway Timeout"), (505, "HTTP Version Not Supported"),
  (506, "Variant Also Negotiates"), (507, "Insufficient Storage"), (508, "Loop Detected"),
  (510, "Not Extended"), (511, "Network Authentication Required")]

/-- A status code with its phrase. -/
def statusText (status : Nat) : String :=
  Digits.text status ++ " " ++ (phrases.lookup status).getD "<unknown status code>"

end Muster.Http
