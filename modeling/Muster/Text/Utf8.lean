/-
UTF-8: characters to bytes and back. Reading never fails: it cuts a byte sequence into characters
and ill-formed stretches, so that a reader of a larger format can decide where an ill-formed
stretch matters.
-/
namespace Muster.Utf8

/-- What a stretch of bytes is: a character, or a longest stretch that begins no character. -/
inductive Piece where
  | char (c : Char)
  | stray
deriving DecidableEq, Repr

/-! ## Writing -/

/-- The one to four bytes of a character. -/
def encodeChar (c : Char) : List UInt8 :=
  let n := c.toNat
  if n < 0x80 then [n.toUInt8]
  else if n < 0x800 then [(0xC0 + n / 64).toUInt8, (0x80 + n % 64).toUInt8]
  else if n < 0x10000 then
    [(0xE0 + n / 4096).toUInt8, (0x80 + n / 64 % 64).toUInt8, (0x80 + n % 64).toUInt8]
  else
    [(0xF0 + n / 262144).toUInt8, (0x80 + n / 4096 % 64).toUInt8, (0x80 + n / 64 % 64).toUInt8,
      (0x80 + n % 64).toUInt8]

def encode (cs : List Char) : List UInt8 :=
  cs.flatMap encodeChar

/-! ## Reading -/

/-- The bytes that may follow a lead byte directly, and how many continuation bytes it needs. -/
structure Lead where
  trail : Nat
  low : Nat := 0x80
  high : Nat := 0xBF

/-- The lead bytes of well-formed UTF-8. The narrowed second-byte ranges leave out the spellings
that are longer than needed, the surrogates and everything above the last character. -/
def lead? (b : Nat) : Option Lead :=
  if b < 0xC2 then none
  else if b < 0xE0 then some { trail := 1 }
  else if b = 0xE0 then some { trail := 2, low := 0xA0 }
  else if b = 0xED then some { trail := 2, high := 0x9F }
  else if b < 0xF0 then some { trail := 2 }
  else if b = 0xF0 then some { trail := 3, low := 0x90 }
  else if b < 0xF4 then some { trail := 3 }
  else if b = 0xF4 then some { trail := 3, high := 0x8F }
  else none

def isContinuation (b : UInt8) : Bool := 0x80 ≤ b.toNat && b.toNat ≤ 0xBF

/-- Cuts bytes into characters and stray stretches. A stray stretch is a byte that leads nothing,
or a lead byte with the continuation bytes it does have. -/
def read : List UInt8 → List Piece
  | [] => []
  | a :: s =>
    if a.toNat < 0x80 then .char (Char.ofNat a.toNat) :: read s
    else match lead? a.toNat with
      | none => .stray :: read s
      | some l =>
        match s with
        | [] => [.stray]
        | b :: s =>
          if b.toNat < l.low ∨ l.high < b.toNat then .stray :: read (b :: s)
          else if l.trail = 1 then
            .char (Char.ofNat ((a.toNat - 0xC0) * 64 + (b.toNat - 0x80))) :: read s
          else match s with
            | [] => [.stray]
            | c :: s =>
              if !isContinuation c then .stray :: read (c :: s)
              else if l.trail = 2 then
                .char (Char.ofNat
                  ((a.toNat - 0xE0) * 4096 + (b.toNat - 0x80) * 64 + (c.toNat - 0x80))) :: read s
              else match s with
                | [] => [.stray]
                | d :: s =>
                  if !isContinuation d then .stray :: read (d :: s)
                  else
                    .char (Char.ofNat ((a.toNat - 0xF0) * 262144 + (b.toNat - 0x80) * 4096
                      + (c.toNat - 0x80) * 64 + (d.toNat - 0x80))) :: read s
termination_by structural s => s

/-- The characters of pieces, if none of them is stray. -/
def chars? : List Piece → Option (List Char)
  | [] => some []
  | .char c :: ps => (chars? ps).map (c :: ·)
  | .stray :: _ => none

/-- The text of well-formed bytes. -/
def decode? (bytes : List UInt8) : Option (List Char) :=
  chars? (read bytes)

/-- The text of any bytes; each stray stretch reads as the replacement character. -/
def decodeLossy (bytes : List UInt8) : List Char :=
  (read bytes).map fun
    | .char c => c
    | .stray => '\uFFFD'

/-- Pieces of a text that is known to be well formed. -/
def pieces (cs : List Char) : List Piece :=
  cs.map .char

end Muster.Utf8
