/-
Web addresses in their normal form. Blanks around an address and line ends inside it do not count,
a backslash is as good as a slash, and segments of dots are resolved when an address is read, so two
texts may well be the same address.
-/
import Muster.Http.Authority

namespace Muster.Http

/-- A web address: scheme, host and port as they are written, the segments of the path, and what
stands behind a question mark and behind a number sign, if there is one. -/
structure Url where
  origin : String
  path : List String := []
  query : Option String := none
  fragment : Option String := none
deriving DecidableEq, Repr

namespace Url

/-! ## The parts of a text -/

def isEdge (c : Char) : Bool := c.toNat ≤ 0x20

def isLineBreak (c : Char) : Bool := c = '\t' || c = '\n' || c = '\r'

/-- The characters that count. -/
def significant (s : String) : List Char :=
  let cs := s.toList.dropWhile isEdge
  ((cs.reverse.dropWhile isEdge).reverse).filter (!isLineBreak ·)

def isSlash (c : Char) : Bool := c = '/' || c = '\\'

def endsAuthority (c : Char) : Bool := isSlash c || c = '?' || c = '#'

/-- The text behind a known start, if it has it. -/
def afterStart? (start cs : List Char) : Option (List Char) :=
  if cs.take start.length = start then some (cs.drop start.length) else none

/-! ## Paths -/

/-- The pieces between slashes. -/
def pieces : List Char → List (List Char)
  | [] => [[]]
  | c :: cs =>
    if isSlash c then [] :: pieces cs
    else
      match pieces cs with
      | p :: ps => (c :: p) :: ps
      | [] => [[c]]

/-- The piece with every spelled dot written as one, if nothing but dots is left. -/
def dots : List Char → Option Nat
  | [] => some 0
  | '.' :: cs => (dots cs).map (· + 1)
  | '%' :: '2' :: 'e' :: cs | '%' :: '2' :: 'E' :: cs => (dots cs).map (· + 1)
  | _ => none

/-- The characters spelled as bytes in a path, behind a question mark and behind a number sign. -/
def pathSet : List Char := [' ', '"', '#', '<', '>', '?', '\x60', '\x7b', '\x7d']
def querySet : List Char := [' ', '"', '#', '<', '>', '\x27']
def fragmentSet : List Char := [' ', '"', '<', '>', '\x60']

/-- A letter and a colon or a bar, as drives are named. -/
def isDrive : List Char → Bool
  | [letter, mark] => letter.isAlpha && (mark = ':' || mark = '|')
  | _ => false

/-- Takes the last segment away, unless it names a drive. -/
def back : (done : List (List Char)) → List (List Char)
  | [] => []
  | p :: ps => if isDrive p then p :: ps else ps

/-- Resolves pieces: one dot stays where it is, two dots go back, and the path still ends in a
slash when one of them stands last. `done` holds the segments so far, the last one first. -/
def resolve : (done : List (List Char)) → List (List Char) → List (List Char)
  | done, [] => done.reverse
  | done, p :: ps =>
    let stay := fun (done : List (List Char)) => if ps.isEmpty then [] :: done else done
    match dots p with
    | some 1 => resolve (stay done) ps
    | some 2 => resolve (stay (back done)) ps
    | _ => resolve (percentEncode pathSet p :: done) ps

/-! ## Whole addresses -/

/-- Reads a web address; nothing when its host or port is none. -/
def parse (s : String) : Option Url := do
  let cs := significant s
  let (scheme, usual, rest) ← match afterStart? "http:".toList cs with
    | some rest => some ("http://".toList, 80, rest)
    | none => (afterStart? "https:".toList cs).map fun rest => ("https://".toList, 443, rest)
  let rest := rest.dropWhile isSlash
  let authority ← Authority.read usual (rest.takeWhile (!endsAuthority ·))
  let rest := rest.dropWhile (!endsAuthority ·)
  let path := rest.takeWhile fun c => c ≠ '?' && c ≠ '#'
  let rest := rest.dropWhile fun c => c ≠ '?' && c ≠ '#'
  let query := match rest with
    | '?' :: q => some (String.ofList (percentEncode querySet (q.takeWhile (· ≠ '#'))))
    | _ => none
  let fragment := match rest.dropWhile (· ≠ '#') with
    | '#' :: f => some (String.ofList (percentEncode fragmentSet f))
    | _ => none
  some { origin := String.ofList (scheme ++ authority),
         path := (resolve [] (pieces (path.drop 1))).map String.ofList, query, fragment }

/-- Adds pairs to what stands behind the question mark. -/
def addQuery (u : Url) (pairs : List (String × String)) : Url :=
  let added := form pairs
  { u with query := some (match u.query with
      | none | some "" => added
      | some q => q ++ "&" ++ added) }

/-- What is asked of the host: the path, and what stands behind the question mark. -/
def resource (u : Url) : String :=
  "/" ++ String.intercalate "/" u.path ++ match u.query with
    | some q => "?" ++ q
    | none => ""

/-- The address as a text. -/
def toText (u : Url) : String :=
  u.origin ++ u.resource ++ match u.fragment with
    | some f => "#" ++ f
    | none => ""

/-- The longest address that can be sent, in bytes. -/
def longest : Nat := 65534

/-- Whether a request can be sent to the address: it is not too long, and its host is written in
characters that a request may carry. -/
def isSendable (u : Url) : Bool :=
  u.toText.utf8ByteSize ≤ longest && !u.origin.toList.any ['"', '\x60', '\x7b', '\x7d'].contains

end Url
end Muster.Http
