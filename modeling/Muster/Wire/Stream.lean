/-
Frames on a stream. What is sent stands behind what has been sent before; what comes in comes piece by
piece, in pieces that need not be those of the sender, until the peer hangs up.
-/
import Muster.Wire.Frame

namespace Muster.Wire.Stream

open Muster.Wire.Frame (maxSize writeLength lengthOf tooLarge lost)

/-! ## Sending -/

/-- Sends a payload behind what has been written. One above the limit is refused, and nothing of it
is written. -/
def send (written payload : List UInt8) : Except Fault Unit × List UInt8 :=
  if maxSize < payload.length then (.error (tooLarge payload.length), written)
  else (.ok (), written ++ writeLength payload.length ++ payload)

/-- Sends payloads one after another, up to the first that is refused. -/
def sendAll (written : List UInt8) : List (List UInt8) → Except Fault Unit × List UInt8
  | [] => (.ok (), written)
  | p :: ps =>
    match send written p with
    | (.ok (), written) => sendAll written ps
    | (.error e, written) => (.error e, written)

/-! ## Receiving -/

/-- Takes so many bytes off the pieces that come in. Where they end before, those that were there are
gone. -/
def takeExact : Nat → List (List UInt8) → Option (List UInt8) × List (List UInt8)
  | n, [] => (if n = 0 then some [] else none, [])
  | n, piece :: pieces =>
    if n ≤ piece.length then (some (piece.take n), piece.drop n :: pieces)
    else
      let (more, rest) := takeExact (n - piece.length) pieces
      (more.map (piece ++ ·), rest)

/-- Receives one payload, and leaves what has not been read. A length above the limit is refused
before anything behind it is read. -/
def receive (pieces : List (List UInt8)) : Except Fault (List UInt8) × List (List UInt8) :=
  match takeExact 4 pieces with
  | (some [a, b, c, d], rest) =>
    let n := lengthOf a b c d
    if maxSize < n then (.error (tooLarge n), rest)
    else
      match takeExact n rest with
      | (some payload, rest) => (.ok payload, rest)
      | (none, rest) => (.error (lost "reading data"), rest)
  | (_, rest) => (.error (lost "reading length prefix"), rest)

/-- The bytes that are taken, and those that are left. -/
theorem takeExact_flatten (n : Nat) (pieces : List (List UInt8)) :
    (takeExact n pieces).1 =
        (if pieces.flatten.length < n then none else some (pieces.flatten.take n)) ∧
      (takeExact n pieces).2.flatten = pieces.flatten.drop n := by
  induction pieces generalizing n with
  | nil => cases n <;> simp [takeExact]
  | cons piece pieces ih =>
    rw [takeExact, List.flatten_cons]
    split
    · rename_i hle
      rw [if_neg (by rw [List.length_append]; omega), List.take_append_of_le_length hle,
        List.drop_append_of_le_length hle]
      exact ⟨rfl, rfl⟩
    · rename_i hlt
      obtain ⟨htaken, hleft⟩ := ih (n - piece.length)
      refine ⟨?_, ?_⟩
      · show Option.map _ (takeExact (n - piece.length) pieces).1 = _
        rw [htaken, List.length_append]
        by_cases hfew : pieces.flatten.length < n - piece.length
        · rw [if_pos hfew, if_pos (by omega)]
          rfl
        · rw [if_neg hfew, if_neg (by omega), List.take_append,
            List.take_of_length_le (Nat.le_of_not_le hlt)]
          rfl
      · show (takeExact (n - piece.length) pieces).2.flatten = _
        rw [hleft, List.drop_append, List.drop_eq_nil_of_le (Nat.le_of_not_le hlt), List.nil_append]

/-- A payload takes the four bytes of its length off the stream at least. -/
theorem receive_length_lt {pieces rest : List (List UInt8)} {payload : List UInt8}
    (h : receive pieces = (.ok payload, rest)) : rest.flatten.length < pieces.flatten.length := by
  obtain ⟨htaken, hleft⟩ := takeExact_flatten 4 pieces
  unfold receive at h
  split at h
  · rename_i a b c d rest' heq
    rw [heq] at htaken hleft
    have hlen : ¬ pieces.flatten.length < 4 := fun hlt => by
      rw [if_pos hlt] at htaken
      cases htaken
    obtain ⟨-, hleft'⟩ := takeExact_flatten (lengthOf a b c d) rest'
    dsimp only at h hleft
    split at h
    · cases h
    · split at h
      · rename_i heq'
        cases h
        rw [heq'] at hleft'
        dsimp only at hleft'
        rw [hleft', hleft, List.length_drop, List.length_drop]
        omega
      · cases h
  · cases h

/-- The payloads that are received one after another, and the fault that ends this. -/
def receiveAll (pieces : List (List UInt8)) : List (List UInt8) × Fault :=
  match _h : receive pieces with
  | (.error e, _) => ([], e)
  | (.ok payload, rest) =>
    let (payloads, e) := receiveAll rest
    (payload :: payloads, e)
termination_by pieces.flatten.length
decreasing_by exact receive_length_lt _h

end Muster.Wire.Stream
