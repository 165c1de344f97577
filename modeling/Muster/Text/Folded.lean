/-
Characters that stand for others in a name. Letters, digits, hyphens and full stops come in many
shapes (wide, raised, ringed, bold) that mean the same in a name, some signs mean several of them,
and some characters mean nothing. Unicode 17.
-/
import Muster.Text.Digits

namespace Muster.Text

/-- First code and length of each stretch of characters that mean the ASCII characters from one
on. -/
def shapeRuns : List (Nat × Nat × Char) := [
  (0xAA, 1, 'a'), (0xB2, 2, '2'), (0xB9, 1, '1'), (0xBA, 1, 'o'), (0x17F, 1, 's'), (0x2B0, 1, 'h'),
  (0x2B2, 1, 'j'), (0x2B3, 1, 'r'), (0x2B7, 1, 'w'), (0x2B8, 1, 'y'), (0x2E1, 1, 'l'),
  (0x2E2, 1, 's'), (0x2E3, 1, 'x'), (0x1D2C, 1, 'a'), (0x1D2E, 1, 'b'), (0x1D30, 2, 'd'),
  (0x1D33, 8, 'g'), (0x1D3C, 1, 'o'), (0x1D3E, 1, 'p'), (0x1D3F, 1, 'r'), (0x1D40, 2, 't'),
  (0x1D42, 1, 'w'), (0x1D43, 1, 'a'), (0x1D47, 1, 'b'), (0x1D48, 2, 'd'), (0x1D4D, 1, 'g'),
  (0x1D4F, 1, 'k'), (0x1D50, 1, 'm'), (0x1D52, 1, 'o'), (0x1D56, 1, 'p'), (0x1D57, 2, 't'),
  (0x1D5B, 1, 'v'), (0x1D62, 1, 'i'), (0x1D63, 1, 'r'), (0x1D64, 2, 'u'), (0x1D9C, 1, 'c'),
  (0x1DA0, 1, 'f'), (0x1DBB, 1, 'z'), (0x2070, 1, '0'), (0x2071, 1, 'i'), (0x2074, 6, '4'),
  (0x207F, 1, 'n'), (0x2080, 10, '0'), (0x2090, 1, 'a'), (0x2091, 1, 'e'), (0x2092, 1, 'o'),
  (0x2093, 1, 'x'), (0x2095, 1, 'h'), (0x2096, 4, 'k'), (0x209A, 1, 'p'), (0x209B, 2, 's'),
  (0x2102, 1, 'c'), (0x210A, 2, 'g'), (0x210C, 1, 'h'), (0x210D, 1, 'h'), (0x210E, 1, 'h'),
  (0x2110, 1, 'i'), (0x2111, 1, 'i'), (0x2112, 1, 'l'), (0x2113, 1, 'l'), (0x2115, 1, 'n'),
  (0x2119, 3, 'p'), (0x211C, 1, 'r'), (0x211D, 1, 'r'), (0x2124, 1, 'z'), (0x2128, 1, 'z'),
  (0x212A, 1, 'k'), (0x212C, 2, 'b'), (0x212F, 1, 'e'), (0x2130, 2, 'e'), (0x2133, 1, 'm'),
  (0x2134, 1, 'o'), (0x2139, 1, 'i'), (0x2145, 1, 'd'), (0x2146, 2, 'd'), (0x2148, 2, 'i'),
  (0x2160, 1, 'i'), (0x2164, 1, 'v'), (0x2169, 1, 'x'), (0x216C, 1, 'l'), (0x216D, 2, 'c'),
  (0x216F, 1, 'm'), (0x2170, 1, 'i'), (0x2174, 1, 'v'), (0x2179, 1, 'x'), (0x217C, 1, 'l'),
  (0x217D, 2, 'c'), (0x217F, 1, 'm'), (0x2460, 9, '1'), (0x24B6, 26, 'a'), (0x24D0, 26, 'a'),
  (0x24EA, 1, '0'), (0x2C7C, 1, 'j'), (0x2C7D, 1, 'v'), (0x3002, 1, '.'), (0xA7F1, 1, 's'),
  (0xA7F2, 1, 'c'), (0xA7F3, 1, 'f'), (0xA7F4, 1, 'q'), (0xFE63, 1, '-'), (0xFF0D, 2, '-'),
  (0xFF10, 10, '0'), (0xFF21, 26, 'a'), (0xFF41, 26, 'a'), (0xFF61, 1, '.'), (0x107A5, 1, 'q'),
  (0x1CCD6, 26, 'a'), (0x1CCF0, 10, '0'), (0x1D400, 26, 'a'), (0x1D41A, 26, 'a'),
  (0x1D434, 26, 'a'), (0x1D44E, 7, 'a'), (0x1D456, 18, 'i'), (0x1D468, 26, 'a'), (0x1D482, 26, 'a'),
  (0x1D49C, 1, 'a'), (0x1D49E, 2, 'c'), (0x1D4A2, 1, 'g'), (0x1D4A5, 2, 'j'), (0x1D4A9, 4, 'n'),
  (0x1D4AE, 8, 's'), (0x1D4B6, 4, 'a'), (0x1D4BB, 1, 'f'), (0x1D4BD, 7, 'h'), (0x1D4C5, 11, 'p'),
  (0x1D4D0, 26, 'a'), (0x1D4EA, 26, 'a'), (0x1D504, 2, 'a'), (0x1D507, 4, 'd'), (0x1D50D, 8, 'j'),
  (0x1D516, 7, 's'), (0x1D51E, 26, 'a'), (0x1D538, 2, 'a'), (0x1D53B, 4, 'd'), (0x1D540, 5, 'i'),
  (0x1D546, 1, 'o'), (0x1D54A, 7, 's'), (0x1D552, 26, 'a'), (0x1D56C, 26, 'a'), (0x1D586, 26, 'a'),
  (0x1D5A0, 26, 'a'), (0x1D5BA, 26, 'a'), (0x1D5D4, 26, 'a'), (0x1D5EE, 26, 'a'),
  (0x1D608, 26, 'a'), (0x1D622, 26, 'a'), (0x1D63C, 26, 'a'), (0x1D656, 26, 'a'),
  (0x1D670, 26, 'a'), (0x1D68A, 26, 'a'), (0x1D7CE, 10, '0'), (0x1D7D8, 10, '0'),
  (0x1D7E2, 10, '0'), (0x1D7EC, 10, '0'), (0x1D7F6, 10, '0'), (0x1F12B, 1, 'c'), (0x1F12C, 1, 'r'),
  (0x1F130, 26, 'a'), (0x1FBF0, 10, '0')]

/-- First code and length of each stretch of signs that mean the numbers from one on. -/
def numberRuns : List (Nat × Nat × Nat) := [
  (0x2469, 11, 10), (0x3251, 15, 21), (0x32B1, 15, 36)]

/-- Signs that mean several letters, all of them hexadecimal digits or an x. -/
def letterSigns : List (Nat × String) := [
  (0x213B, "fax"), (0x3372, "da"), (0x33C4, "cc"), (0x33C5, "cd"), (0x33C8, "db"), (0xFB00, "ff"),
  (0x1F12D, "cd")]

/-- First and last code of each stretch of characters that mean nothing. -/
def silentRanges : List (Nat × Nat) := [
  (0xAD, 0xAD), (0x34F, 0x34F), (0x115F, 0x1160), (0x17B4, 0x17B5), (0x180B, 0x180F),
  (0x200B, 0x200B), (0x2060, 0x2064), (0x206A, 0x206F), (0x3164, 0x3164), (0xFE00, 0xFE0F),
  (0xFEFF, 0xFEFF), (0xFFA0, 0xFFA0), (0x1BCA0, 0x1BCA3), (0x1D173, 0x1D17A), (0xE0100, 0xE01EF)]

/-- The place of a code in the first stretch that holds it, with what the stretch begins with. -/
def placeIn {α : Type} (n : Nat) (runs : List (Nat × Nat × α)) : Option (Nat × α) :=
  (runs.find? fun (first, length, _) => first ≤ n && n < first + length).map
    fun (first, _, image) => (n - first, image)

/-- What a character that is not ASCII means in ASCII characters, if that is known. -/
def foldWide? (c : Char) : Option (List Char) :=
  let n := c.toNat
  match placeIn n shapeRuns with
  | some (k, first) => some [Char.ofNat (first.toNat + k)]
  | none =>
    match placeIn n numberRuns with
    | some (k, first) => some (Digits.write (first + k))
    | none =>
      if silentRanges.any fun (a, b) => a ≤ n && n ≤ b then some []
      else (letterSigns.lookup n).map String.toList

/-- What a character means in a name: a letter in lower case, and all else that is ASCII itself. -/
def fold? (c : Char) : Option (List Char) :=
  if c.toNat < 0x80 then some [c.toLower] else foldWide? c

end Muster.Text
