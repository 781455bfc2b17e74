/-
# Outcomes of requests

What comes of a request: it is lost, or it is answered with a status and a text.
Nothing is said here about what an answer means to who asked.
-/

namespace QuoteBoard.Backend

/-- The standard phrases for status codes. -/
def reasons : List (Nat × String) :=
  [ (100, "Continue"), (101, "Switching Protocols"), (102, "Processing"),
    (200, "OK"), (201, "Created"), (202, "Accepted"), (203, "Non Authoritative Information"),
    (204, "No Content"), (205, "Reset Content"), (206, "Partial Content"),
    (207, "Multi-Status"), (208, "Already Reported"), (226, "IM Used"),
    (300, "Multiple Choices"), (301, "Moved Permanently"), (302, "Found"), (303, "See Other"),
    (304, "Not Modified"), (305, "Use Proxy"), (307, "Temporary Redirect"),
    (308, "Permanent Redirect"),
    (400, "Bad Request"), (401, "Unauthorized"), (402, "Payment Required"), (403, "Forbidden"),
    (404, "Not Found"), (405, "Method Not Allowed"), (406, "Not Acceptable"),
    (407, "Proxy Authentication Required"), (408, "Request Timeout"), (409, "Conflict"),
    (410, "Gone"), (411, "Length Required"), (412, "Precondition Failed"),
    (413, "Payload Too Large"), (414, "URI Too Long"), (415, "Unsupported Media Type"),
    (416, "Range Not Satisfiable"), (417, "Expectation Failed"), (418, "I'm a teapot"),
    (421, "Misdirected Request"), (422, "Unprocessable Entity"), (423, "Locked"),
    (424, "Failed Dependency"), (425, "Too Early"), (426, "Upgrade Required"),
    (428, "Precondition Required"), (429, "Too Many Requests"),
    (431, "Request Header Fields Too Large"), (451, "Unavailable For Legal Reasons"),
    (500, "Internal Server Error"), (501, "Not Implemented"), (502, "Bad Gateway"),
    (503, "Service Unavailable"), (504, "Gateway Timeout"), (505, "HTTP Version Not Supported"),
    (506, "Variant Also Negotiates"), (507, "Insufficient Storage"), (508, "Loop Detected"),
    (510, "Not Extended"), (511, "Network Authentication Required") ]

/-- A status as it is shown: its code and its phrase. -/
def statusText (code : Nat) : String :=
  Nat.repr code ++ " " ++ (reasons.lookup code).getD "<unknown status code>"

/-- The status says that the request has succeeded. -/
def isSuccess (code : Nat) : Bool := 200 ≤ code && code < 300

/-- The status says that the server has failed. -/
def isServerError (code : Nat) : Bool := 500 ≤ code && code < 600

/-- The status of a server that is asked too often. -/
def tooManyRequests : Nat := 429

/-- What comes of a request. -/
inductive Outcome where
  /-- No answer arrived; `error` is what is said of it, where that is told. -/
  | lost (error : String := "")
  | answered (code : Nat) (body : String)
  deriving DecidableEq, Repr

/-- Outcomes of the requests to come, by their number from zero. -/
abbrev Outcomes := Nat → Outcome

end QuoteBoard.Backend
