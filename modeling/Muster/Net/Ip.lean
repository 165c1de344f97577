/-
Internet addresses: reading both notations and writing them in their usual form.
-/
import Muster.Text.Digits

namespace Muster

inductive Ip where
  | v4 (bits : BitVec 32)
  | v6 (bits : BitVec 128)
deriving DecidableEq, Repr

namespace Ip

/-! ## Reading -/

/-- A number in the given base of at most `limit` digits and at most `top`. Without `padded`, a
leading zero is only allowed to stand alone. -/
def takeNumber (base limit top : Nat) (padded : Bool) (cs : List Char) :
    Option (Nat × List Char) :=
  let isDigit := fun c => match Digits.hexValue? c with
    | some d => d < base
    | none => false
  let digits := cs.takeWhile isDigit
  let n := digits.foldl (fun n c => n * base + (Digits.hexValue? c).getD 0) 0
  if digits.isEmpty || limit < digits.length || top < n then none
  else if !padded && 1 < digits.length && digits.head? == some '0' then none
  else some (n, cs.drop digits.length)

/-- Takes one character off the front. -/
def takeChar (c : Char) : List Char → Option (List Char)
  | d :: cs => if c = d then some cs else none
  | [] => none

/-- Four numbers below 256 with points between. -/
def takeV4 (cs : List Char) : Option (Nat × List Char) := do
  let octet := takeNumber 10 3 255 false
  let (a, cs) ← octet cs
  let (b, cs) ← octet (← takeChar '.' cs)
  let (c, cs) ← octet (← takeChar '.' cs)
  let (d, cs) ← octet (← takeChar '.' cs)
  some (((a * 256 + b) * 256 + c) * 256 + d, cs)

/-- Up to `room` groups of four hexadecimal digits with colons between; the last two may be written
as a version 4 address, which ends the groups. Returns the groups and whether they ended so. -/
def takeGroups : (room : Nat) → (first : Bool) → List Char → (List Nat × Bool) × List Char
  | 0, _, cs => (([], false), cs)
  | room + 1, first, cs =>
    let behind := if first then some cs else takeChar ':' cs
    match behind with
    | none => (([], false), cs)
    | some rest =>
      match if room = 0 then none else takeV4 rest with
      | some (n, rest) => (([n / 65536, n % 65536], true), rest)
      | none =>
        match takeNumber 16 4 65535 true rest with
        | none => (([], false), cs)
        | some (g, rest) =>
          let ((gs, ended), rest) := takeGroups room false rest
          ((g :: gs, ended), rest)

/-- The number that groups of sixteen bits write. -/
def ofGroups (groups : List Nat) : Nat := groups.foldl (fun n g => n * 65536 + g) 0

/-- Eight groups, or fewer around a double colon that stands for at least one group of zero. -/
def takeV6 (cs : List Char) : Option (Nat × List Char) :=
  let ((head, ended), rest) := takeGroups 8 true cs
  if head.length = 8 then some (ofGroups head, rest)
  else if ended then none
  else do
    let rest ← takeChar ':' (← takeChar ':' rest)
    let ((tail, _), rest) := takeGroups (7 - head.length) true rest
    some (ofGroups (head ++ List.replicate (8 - head.length - tail.length) 0 ++ tail), rest)

/-- Reads a whole text as an address. -/
def parse? (s : String) : Option Ip :=
  match takeV4 s.toList with
  | some (n, []) => some (.v4 (.ofNat 32 n))
  | some _ => none
  | none =>
    match takeV6 s.toList with
    | some (n, []) => some (.v6 (.ofNat 128 n))
    | _ => none

/-! ## Writing -/

def writeV4 (n : Nat) : List Char :=
  Digits.write (n / 16777216 % 256) ++ '.' :: Digits.write (n / 65536 % 256)
    ++ '.' :: Digits.write (n / 256 % 256) ++ '.' :: Digits.write (n % 256)

/-- The eight groups of a version 6 address. -/
def groupsOf (n : Nat) : List Nat :=
  (List.range 8).map fun i => n / Nat.pow 65536 (7 - i) % 65536

/-- Start and length of the first longest stretch of zero groups. -/
def zeroRun (groups : List Nat) : Nat × Nat :=
  let step := fun (state : Nat × (Nat × Nat) × (Nat × Nat)) (g : Nat) =>
    let (i, current, longest) := state
    if g = 0 then
      let current := if current.2 = 0 then (i, 1) else (current.1, current.2 + 1)
      (i + 1, current, if longest.2 < current.2 then current else longest)
    else (i + 1, (0, 0), longest)
  (groups.foldl step (0, (0, 0), (0, 0))).2.2

def writeGroups (groups : List Nat) : List Char :=
  List.intercalate [':'] (groups.map Digits.writeHex)

/-- Lower-case groups, the longest stretch of at least two zero groups as a double colon. -/
def writeCompressed (n : Nat) : List Char :=
  let groups := groupsOf n
  let (start, length) := zeroRun groups
  if 1 < length then
    writeGroups (groups.take start) ++ ':' :: ':' :: writeGroups (groups.drop (start + length))
  else writeGroups groups

/-- Compressed groups; an embedded version 4 address in its own notation. -/
def writeV6 (n : Nat) : List Char :=
  if n / 4294967296 = 0xFFFF then "::ffff:".toList ++ writeV4 (n % 4294967296)
  else writeCompressed n

def toText : Ip → String
  | v4 bits => String.ofList (writeV4 bits.toNat)
  | v6 bits => String.ofList (writeV6 bits.toNat)

/-! ## Kinds -/

/-- An address of version 4 in the notation of version 6. -/
def isMapped (bits : BitVec 128) : Bool := bits.toNat / 4294967296 = 0xFFFF

/-- Stands for many hosts. -/
def isMulticast (bits : BitVec 128) : Bool := bits.toNat / Nat.pow 2 120 = 0xFF

/-- Holds in one zone only. -/
def isLinkLocal (bits : BitVec 128) : Bool := bits.toNat / Nat.pow 2 118 = 0x3FA

/-- The address as a number. -/
def toNat : Ip → Nat
  | v4 bits => bits.toNat
  | v6 bits => bits.toNat

end Ip
end Muster
