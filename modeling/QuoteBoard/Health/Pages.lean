/-
# Health pages

Four pages tell the outside how the service is: whether it lives, whether it is ready,
its metrics, and the text of every cell. They are read with `GET` or, without their
text, with `HEAD`.
-/

import QuoteBoard.Health.Display
import QuoteBoard.Health.Metrics
import QuoteBoard.Json.Quoted

namespace QuoteBoard.Health

/-- An answer: its status code and its text. -/
structure Page where
  code : Nat
  body : String
  deriving DecidableEq, Repr

/-- What the pages show. -/
structure View where
  status : Engine.Status
  metrics : Metrics
  display : Display

/-- The page at a path, if there is one. -/
def View.page? (v : View) (path : String) : Option Page :=
  match path with
  | "/live" => some ⟨200, "OK"⟩
  | "/ready" => some (if v.status.isReady then ⟨200, "READY"⟩ else ⟨503, "NOT READY"⟩)
  | "/metrics" => some ⟨200, v.metrics.exposition⟩
  | "/rows" => some ⟨200, Json.textObject v.display.cells.entries⟩
  | _ => none

/-- What follows the name of a protocol in a target that tells one. -/
def afterProtocol? : List Char → Option (List Char)
  | ':' :: '/' :: '/' :: rest => some rest
  | _ :: rest => afterProtocol? rest
  | [] => none

/-- Where the path of a target ends. -/
def endsPath (c : Char) : Bool := c == '?' || c == '#'

/-- A target from its path on. A target that does not begin with a slash may tell a protocol and a
host in front of the path, which is a slash if there is none. -/
def fromPath (target : List Char) : List Char :=
  if target.head? = some '/' then target
  else
    match afterProtocol? target with
    | none => target
    | some rest =>
      let below := rest.dropWhile fun c => c != '/' && !endsPath c
      if below.head? = some '/' then below else '/' :: below

/-- The path of a request target, its query and fragment left out. -/
def pathOf (target : String) : String :=
  String.ofList ((fromPath target.toList).takeWhile fun c => !endsPath c)

/-- The answer to a request. -/
def View.respond (v : View) (method target : String) : Page :=
  match v.page? (pathOf target) with
  | none => ⟨404, ""⟩
  | some page =>
    if method = "GET" then page
    else if method = "HEAD" then { page with body := "" }
    else ⟨405, ""⟩

end QuoteBoard.Health
