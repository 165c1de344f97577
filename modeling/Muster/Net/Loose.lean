/-
Addresses of version 4 in their loose forms: one to four numbers between full stops, each in base
ten, eight or sixteen, of which the last fills what the others leave.
-/
import Muster.Text.Digits

namespace Muster.Net.Loose

/-- A number in base ten, in base eight behind a zero, or in base sixteen behind a zero and an x. -/
def readPart : List Char → Option Nat
  | [] => none
  | ['0'] => some 0
  | '0' :: 'x' :: ds | '0' :: 'X' :: ds => inBase 16 ds
  | '0' :: ds => inBase 8 ds
  | ds => inBase 10 ds
where
  inBase (base : Nat) (ds : List Char) : Option Nat :=
    ds.foldl (fun n c => do
      let n ← n
      let d ← Digits.hexValue? c
      if d < base then some (n * base + d) else none) (some 0)

/-- The address that numbers write: each but the last stands for one of the four bytes. -/
def joinParts : (acc room : Nat) → List Nat → Option Nat
  | _, _, [] => none
  | acc, room, [last] =>
    let left := Nat.pow 256 room
    if last < left then some (acc * left + last) else none
  | acc, room, p :: ps =>
    if 256 ≤ p ∨ room ≤ 1 then none else joinParts (acc * 256 + p) (room - 1) ps

/-- The address that pieces write. -/
def ofPieces (pieces : List (List Char)) : Option Nat := do
  joinParts 0 4 (← pieces.mapM readPart)

/-- Reads a whole text; a base must be followed by digits. -/
def read? (cs : List Char) : Option Nat :=
  let pieces := cs.splitOn '.'
  if pieces.any fun p => p.length = 2 && p.head? = some '0' && p.any ['x', 'X'].contains then none
  else ofPieces pieces

end Muster.Net.Loose
