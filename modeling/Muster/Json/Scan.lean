/-
The tokens of JSON text: blanks, strings, words and numbers. Each scanner takes what it recognises
off the front of the text and returns the rest. A string is scanned in one of two ways: read, when
its characters are wanted, or passed over, when only its form matters.
-/
import Muster.Json.Value
import Muster.Text.Digits
import Muster.Text.Utf8

namespace Muster.Json

open Utf8 (Piece)

/-- What is left to read. -/
abbrev Cursor := List Piece

/-- What bounds the steps of a reader that takes something off the front in each of them: a text
longer than the one it reads. -/
def bound (cs : Cursor) : Cursor := .stray :: cs

/-! ## Blanks and words -/

def isSpace (c : Char) : Bool := c == ' ' || c == '\t' || c == '\n' || c == '\r'

def skipSpace : Cursor → Cursor
  | .char c :: cs => if isSpace c then skipSpace cs else .char c :: cs
  | cs => cs

/-- Takes exactly these characters off the front. -/
def takeWord : List Char → Cursor → Option Cursor
  | [], cs => some cs
  | w :: ws, .char c :: cs => if c = w then takeWord ws cs else none
  | _ :: _, _ => none

/-! ## Strings -/

/-- Four hexadecimal digits as a number. -/
def takeHex4 : Cursor → Option (Nat × Cursor)
  | .char a :: .char b :: .char c :: .char d :: cs => do
    let a ← Digits.hexValue? a
    let b ← Digits.hexValue? b
    let c ← Digits.hexValue? c
    let d ← Digits.hexValue? d
    some (((a * 16 + b) * 16 + c) * 16 + d, cs)
  | _ => none

/-- The character of a one-letter escape. -/
def simpleEscape? (c : Char) : Option Char :=
  if c = '"' then some '"'
  else if c = '\\' then some '\\'
  else if c = '/' then some '/'
  else if c = 'b' then some '\x08'
  else if c = 'f' then some '\x0c'
  else if c = 'n' then some '\n'
  else if c = 'r' then some '\r'
  else if c = 't' then some '\t'
  else none

def isHighSurrogate (n : Nat) : Bool := 0xD800 ≤ n && n ≤ 0xDBFF
def isLowSurrogate (n : Nat) : Bool := 0xDC00 ≤ n && n ≤ 0xDFFF

/-- The character of a `\u` escape, whose four digits come first in the text. A high surrogate must
be followed by the escape of a low one; any other surrogate is refused. -/
def takeUnicode (cs : Cursor) : Option (Char × Cursor) := do
  let (n, cs) ← takeHex4 cs
  if isHighSurrogate n then
    let cs ← takeWord ['\\', 'u'] cs
    let (m, cs) ← takeHex4 cs
    if isLowSurrogate m then
      some (Char.ofNat (0x10000 + (n - 0xD800) * 1024 + (m - 0xDC00)), cs)
    else none
  else if isLowSurrogate n then none
  else some (Char.ofNat n, cs)

/-- The characters of a string up to its closing quote. -/
def takeChars : (fuel : Cursor) → Cursor → Option (List Char × Cursor)
  | [], _ => none
  | _ :: fuel, cs =>
    match cs with
    | .char '"' :: cs => some ([], cs)
    | .char '\\' :: .char 'u' :: cs => do
      let (c, cs) ← takeUnicode cs
      let (s, cs) ← takeChars fuel cs
      some (c :: s, cs)
    | .char '\\' :: .char e :: cs => do
      let c ← simpleEscape? e
      let (s, cs) ← takeChars fuel cs
      some (c :: s, cs)
    | .char c :: cs =>
      if c = '\\' ∨ c.toNat < 0x20 then none
      else do
        let (s, cs) ← takeChars fuel cs
        some (c :: s, cs)
    | _ => none

/-- A string whose opening quote has been taken. -/
def takeText (cs : Cursor) : Option (String × Cursor) := do
  let (s, rest) ← takeChars (bound cs) cs
  some (String.ofList s, rest)

/-- Passes over a string whose opening quote has been taken. Only controls and the form of escapes
are looked at. -/
def passText : (fuel : Cursor) → Cursor → Option Cursor
  | [], _ => none
  | _ :: fuel, cs =>
    match cs with
    | .char '"' :: cs => some cs
    | .char '\\' :: .char 'u' :: cs => do
      let (_, cs) ← takeHex4 cs
      passText fuel cs
    | .char '\\' :: .char e :: cs => do
      let _ ← simpleEscape? e
      passText fuel cs
    | .char c :: cs => if c = '\\' ∨ c.toNat < 0x20 then none else passText fuel cs
    | .stray :: cs => passText fuel cs
    | [] => none

/-! ## Numbers -/

def maxWord : Nat := Nat.pow 2 64 - 1

/-- Digits off the front. -/
def takeDigits : Cursor → List Nat × Cursor
  | .char c :: cs =>
    match Digits.value? c with
    | some d => let (ds, rest) := takeDigits cs; (d :: ds, rest)
    | none => ([], .char c :: cs)
  | cs => ([], cs)

/-- The leading digits whose number still fits a 64-bit word, taken onto a number read before: the
number, and how many digits are left over. -/
def fitDigits : (acc : Nat) → List Nat → Nat × List Nat
  | acc, [] => (acc, [])
  | acc, d :: ds => if maxWord < acc * 10 + d then (acc, d :: ds) else fitDigits (acc * 10 + d) ds

/-- The exponent part after its mark: whether it is positive, and its size. -/
def takeExponent (cs : Cursor) : Option ((Bool × Nat) × Cursor) :=
  let (positive, cs) := match cs with
    | .char '+' :: cs => (true, cs)
    | .char '-' :: cs => (false, cs)
    | cs => (true, cs)
  match takeDigits cs with
  | ([], _) => none
  | (ds, rest) => some ((positive, ds.foldl (fun n d => n * 10 + d) 0), rest)

/-- The largest size of an exponent that is taken at its value. -/
def maxExponentSize : Nat := Nat.pow 2 31 - 1

/-- The double of a significand and a written exponent added to the one that the digits imply.
An exponent too large for 31 bits makes zero of a zero or of a negative exponent and is refused
otherwise. -/
def withExponent (negative : Bool) (significand : Nat) (implied : Int)
    (positive : Bool) (size : Nat) : Option Binary64 :=
  if maxExponentSize < size then
    if significand ≠ 0 ∧ positive then none else some (Binary64.zero negative)
  else Binary64.ofDecimal? negative significand (if positive then implied + size else implied - size)

/-- What may follow the digits of a number that is a double: an exponent. -/
def finishReal (negative : Bool) (significand : Nat) (implied : Int) (cs : Cursor) :
    Option (Number × Cursor) :=
  match cs with
  | .char 'e' :: rest | .char 'E' :: rest => do
    let ((positive, size), rest) ← takeExponent rest
    some (.real (← withExponent negative significand implied positive size), rest)
  | _ => do some (.real (← Binary64.ofDecimal? negative significand implied), cs)

/-- What follows the whole part: a fraction and an exponent, or nothing. Digits that would carry the
significand above 64 bits are dropped: behind the point without trace, before it by a power of
ten. -/
def finishNumber (negative : Bool) (significand dropped : Nat) (cs : Cursor) :
    Option (Number × Cursor) :=
  match cs with
  | .char '.' :: rest =>
    match takeDigits rest with
    | ([], _) => none
    | (ds, rest) =>
      let (m, left) := fitDigits significand ds
      finishReal negative m ((dropped : Int) - (ds.length - left.length : Nat)) rest
  | .char 'e' :: _ | .char 'E' :: _ => finishReal negative significand dropped cs
  | _ =>
    if dropped ≠ 0 then finishReal negative significand dropped cs
    else if !negative then some (.whole significand, cs)
    else if significand = 0 ∨ Nat.pow 2 63 < significand then
      finishReal negative significand 0 cs
    else some (.negative significand, cs)

/-- An unsigned number: its whole part has no leading zero. -/
def takeUnsigned (negative : Bool) (cs : Cursor) : Option (Number × Cursor) :=
  match takeDigits cs with
  | ([], _) => none
  | (0 :: _ :: _, _) => none
  | (ds, rest) =>
    let (m, left) := fitDigits 0 ds
    finishNumber negative m left.length rest

def takeNumber : Cursor → Option (Number × Cursor)
  | .char '-' :: cs => takeUnsigned true cs
  | cs => takeUnsigned false cs

/-- Passes over a number; its size does not matter. -/
def passNumber (cs : Cursor) : Option Cursor :=
  let cs := match cs with
    | .char '-' :: cs => cs
    | cs => cs
  match takeDigits cs with
  | ([], _) => none
  | (0 :: _ :: _, _) => none
  | (_, rest) => do
    let rest ← match rest with
      | .char '.' :: rest =>
        match takeDigits rest with
        | ([], _) => none
        | (_, rest) => some rest
      | rest => some rest
    match rest with
    | .char 'e' :: rest | .char 'E' :: rest => do
      let (_, rest) ← takeExponent rest
      some rest
    | rest => some rest

end Muster.Json
