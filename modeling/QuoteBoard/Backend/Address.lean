/-
# Addresses

An address tells where and what to ask: a host with a port, a path, and what stands
after the question mark. It is read from its text. The part up to the first slash,
question mark or hash tells whom to ask: perhaps the name of a user up to the last `@`,
then the host, then a port after a colon. A text whose host is none or whose port is no
number of sixteen bits is no address. On a path, `.` stands for the folder itself and
`..` for the one above it.
-/

import QuoteBoard.Backend.Address.Host

namespace QuoteBoard.Backend

/-- An address. -/
structure Address where
  host : String
  /-- The port, unless it is the usual one. -/
  port : Option Nat
  /-- The parts of the path between slashes. -/
  folders : List String
  /-- What stands after the question mark. -/
  query : Option String
  deriving DecidableEq, Repr

namespace Address

open QuoteBoard.Text (numberIn? pieces lastPiece)

/-- A backslash is as good as a slash. -/
def isSlash (c : Char) : Bool := c == '/' || c == '\\'

/-- Ends the part that tells whom to ask. -/
def endsAuthority (c : Char) : Bool := isSlash c || c == '?' || c == '#'

/-- What follows the name of the protocol and the slashes after it. -/
def afterScheme? : List Char → Option (List Char)
  | 'h' :: 't' :: 't' :: 'p' :: ':' :: rest => some (rest.dropWhile isSlash)
  | 'h' :: 't' :: 't' :: 'p' :: 's' :: ':' :: rest => some (rest.dropWhile isSlash)
  | _ => none

/-- The host in front of a port, and the rest from its colon on. Colons between brackets belong to
the host. -/
def splitPort (inside : Bool) : List Char → List Char × List Char
  | [] => ([], [])
  | c :: rest =>
    if c == ':' && !inside then ([], c :: rest)
    else
      let (host, port) := splitPort (c == '[' || (inside && c != ']')) rest
      (c :: host, port)

/-- The greatest port. -/
def maxPort : Nat := 65535

/-- A port after its colon; there may be none. -/
def port? : List Char → Option (Option Nat)
  | [] => some none
  | _ :: [] => some none
  | _ :: digits => ((numberIn? 10 digits).filter (· ≤ maxPort)).map some

/-- A part of a path that stands for the folder itself, its dot perhaps spelled by a byte. -/
def isHere (part : String) : Bool := [".", "%2e"].contains part.toLower

/-- A part of a path that stands for the folder above. -/
def isAbove (part : String) : Bool := ["..", ".%2e", "%2e.", "%2e%2e"].contains part.toLower

/-- The folders on a path, `behind` being those passed already, the last one first. A path that ends
in dots ends in a slash. -/
def walk (behind : List String) : List String → List String
  | [] => behind.reverse
  | [last] =>
    (if isAbove last then "" :: behind.tail
      else if isHere last then "" :: behind else last :: behind).reverse
  | part :: rest =>
    walk (if isAbove part then behind.tail else if isHere part then behind else part :: behind) rest

/-- The folders of a path that begins with a slash or is empty. -/
def foldersOf (path : List Char) : List String :=
  walk [] ((pieces isSlash (path.drop 1)).map String.ofList)

/-- The address that a text spells. Tabs and line ends in it do not count, and nothing is asked for
after a hash. -/
def ofText? (text : String) : Option Address := do
  let rest ← afterScheme? (text.toList.filter fun c => c != '\t' && c != '\n' && c != '\r')
  let (authority, below) := rest.span fun c => !endsAuthority c
  let (host, port) := splitPort false (lastPiece (· == '@') authority)
  if !Host.isHost host then none
  let port ← port? port
  let (path, query) := (below.takeWhile (· != '#')).span (· != '?')
  return ⟨String.ofList host, port, foldersOf path, (query.tail?).map String.ofList⟩

/-- What is asked of the host, with pairs of names and values joined to what stands after the
question mark already. -/
def target (a : Address) (pairs : List (String × String)) : String :=
  let path := String.join (a.folders.map fun folder => "/" ++ Text.pathText folder)
  match [Text.queryText (a.query.getD ""), Text.pairsText pairs].filter (· ≠ "") with
  | [] => path
  | queries => path ++ "?" ++ "&".intercalate queries

end Address

end QuoteBoard.Backend
