/-
Frames: a payload behind its length in four bytes, most significant first. Payloads above the
limit are neither written nor read.
-/
import Muster.Fault

namespace Muster.Wire.Frame

/-- The largest payload, in bytes. -/
def maxSize : Nat := 100 * 1024 * 1024

/-- The four bytes of a length. -/
def writeLength (n : Nat) : List UInt8 :=
  [(n / 16777216 % 256).toUInt8, (n / 65536 % 256).toUInt8, (n / 256 % 256).toUInt8,
    (n % 256).toUInt8]

/-- The length that four bytes write. -/
def lengthOf (a b c d : UInt8) : Nat :=
  ((a.toNat * 256 + b.toNat) * 256 + c.toNat) * 256 + d.toNat

def tooLarge (size : Nat) : Fault :=
  .invalidResponse ("Message too large: " ++ Digits.text size ++ " bytes (max "
    ++ Digits.text maxSize ++ " bytes)")

/-- The connection has ended in the middle of something. -/
def lost (doing : String) : Fault := .connection (doing ++ ": connection lost")

/-- The bytes of a frame. -/
def write (payload : List UInt8) : Except Fault (List UInt8) :=
  if maxSize < payload.length then .error (tooLarge payload.length)
  else .ok (writeLength payload.length ++ payload)

/-- Takes the payload of one frame off the front of a stream that ends behind the given bytes. A
length above the limit is refused before any of the payload is looked at. -/
def read (bytes : List UInt8) : Except Fault (List UInt8 × List UInt8) :=
  match bytes with
  | a :: b :: c :: d :: rest =>
    let n := lengthOf a b c d
    if maxSize < n then .error (tooLarge n)
    else if rest.length < n then .error (lost "reading data")
    else .ok (rest.take n, rest.drop n)
  | _ => .error (lost "reading length prefix")

/-- Reading makes a stream shorter. -/
theorem read_length_lt {bytes payload rest : List UInt8} (h : read bytes = .ok (payload, rest)) :
    rest.length < bytes.length := by
  match bytes with
  | [] | [_] | [_, _] | [_, _, _] => simp [read] at h
  | a :: b :: c :: d :: tail =>
    simp only [read] at h
    split at h
    · simp at h
    · split at h
      · simp at h
      · simp only [Except.ok.injEq, Prod.mk.injEq] at h
        obtain ⟨-, rfl⟩ := h
        simp only [List.length_drop, List.length_cons]
        omega

/-- The payloads of all whole frames, and the fault that ends the reading. -/
def readAll (bytes : List UInt8) : List (List UInt8) × Fault :=
  match _h : read bytes with
  | .error e => ([], e)
  | .ok (payload, rest) =>
    let (payloads, e) := readAll rest
    (payload :: payloads, e)
termination_by bytes.length
decreasing_by exact read_length_lt _h

end Muster.Wire.Frame
