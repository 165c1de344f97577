/-
Paths: texts cut into segments by slashes. A key lies under a directory when the directory's
segments are the first segments of the key.
-/
namespace Muster.Path

/-- The text without the slashes at its end. -/
def withoutTrailingSlashes (cs : List Char) : List Char :=
  (cs.reverse.dropWhile (· == '/')).reverse

/-- What is left of `s` behind the characters `p`, if it begins with them. -/
def afterStart : (p s : List Char) → Option (List Char)
  | [], s => some s
  | _ :: _, [] => none
  | a :: p, b :: s => if a = b then afterStart p s else none

/-- `key` is the directory `dir` or lies below it. Slashes at the end of `dir` do not count; an empty
`dir` holds every key. -/
def under (dir key : List Char) : Bool :=
  match withoutTrailingSlashes dir with
  | [] => true
  | dir =>
    match afterStart dir key with
    | none => false
    | some [] => true
    | some (c :: _) => c == '/'

def isUnder (dir key : String) : Bool := under dir.toList key.toList

/-- The segments between slashes; a text without slash is its only segment. -/
def segments : List Char → List (List Char)
  | [] => [[]]
  | c :: cs =>
    if c = '/' then [] :: segments cs
    else
      match segments cs with
      | s :: ss => (c :: s) :: ss
      | [] => [[c]]

end Muster.Path
