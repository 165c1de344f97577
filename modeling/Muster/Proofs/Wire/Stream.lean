/-
What is sent comes out as it went in, in whatever pieces it comes; and where the stream ends early, what
comes out are the payloads whose frames have come in whole, and then a lost connection.
-/
import Muster.Wire.Stream
import Muster.Proofs.Wire.Frame

namespace Muster.Wire.Stream

open Muster.Wire.Frame (maxSize writeLength lengthOf tooLarge lost)

variable {payload rest : List UInt8} {payloads pieces : List (List UInt8)}

/-! ## Pieces do not matter -/

theorem takeExact_eq_none (pieces : List (List UInt8)) {n : Nat} (h : pieces.flatten.length < n) :
    ∃ left, takeExact n pieces = (none, left) :=
  ⟨_, Prod.ext ((takeExact_flatten n pieces).1.trans (if_pos h)) rfl⟩

theorem takeExact_eq_some (pieces : List (List UInt8)) {n : Nat} (h : n ≤ pieces.flatten.length) :
    ∃ left, takeExact n pieces = (some (pieces.flatten.take n), left) ∧
      left.flatten = pieces.flatten.drop n :=
  ⟨_, Prod.ext ((takeExact_flatten n pieces).1.trans (if_neg (Nat.not_lt.2 h))) rfl,
    (takeExact_flatten n pieces).2⟩

/-- What is received once the four bytes of the length are there. -/
theorem receive_length {a b c d : UInt8} (h : pieces.flatten = a :: b :: c :: d :: rest) :
    ∃ left, left.flatten = rest ∧ receive pieces =
      (if maxSize < lengthOf a b c d then (.error (tooLarge (lengthOf a b c d)), left)
      else match takeExact (lengthOf a b c d) left with
        | (some payload, left) => (.ok payload, left)
        | (none, left) => (.error (lost "reading data"), left)) := by
  obtain ⟨left, htaken, hleft⟩ := takeExact_eq_some pieces (n := 4) (by simp [h])
  rw [h] at htaken hleft
  exact ⟨left, hleft, by rw [receive, htaken]; rfl⟩

/-- A payload is received as it is read off the bytes of all pieces together. -/
theorem receive_read (pieces : List (List UInt8)) :
    ∃ left, receive pieces = ((Frame.read pieces.flatten).map Prod.fst, left) ∧
      ∀ payload rest, Frame.read pieces.flatten = .ok (payload, rest) → left.flatten = rest := by
  rcases hbytes : pieces.flatten with _ | ⟨a, _ | ⟨b, _ | ⟨c, _ | ⟨d, rest⟩⟩⟩⟩
  case cons.cons.cons.cons =>
    obtain ⟨left, hleft, heq⟩ := receive_length hbytes
    rw [Frame.read]
    split
    · rename_i hlarge
      rw [if_pos hlarge] at heq
      exact ⟨left, heq, fun _ _ hread => by cases hread⟩
    · rename_i hlarge
      rw [if_neg hlarge] at heq
      split
      · rename_i hfew
        obtain ⟨left', hnone⟩ := takeExact_eq_none left (hleft ▸ hfew)
        rw [hnone] at heq
        exact ⟨left', heq, fun _ _ hread => by cases hread⟩
      · rename_i hmany
        obtain ⟨left', hsome, hleft'⟩ := takeExact_eq_some left (hleft ▸ Nat.not_lt.1 hmany)
        rw [hsome] at heq
        rw [hleft] at heq hleft'
        exact ⟨left', heq, fun _ _ hread => by cases hread; exact hleft'⟩
  all_goals
    -- the length is not there
    obtain ⟨left, hnone⟩ := takeExact_eq_none pieces (n := 4) (by simp [hbytes])
    exact ⟨left, by rw [receive, hnone]; rfl, fun _ _ hread => by cases hread⟩

theorem receiveAll_error {e : Fault} {left : List (List UInt8)}
    (h : receive pieces = (.error e, left)) : receiveAll pieces = ([], e) := by
  rw [receiveAll]
  split <;> simp_all

theorem receiveAll_ok {left : List (List UInt8)} (h : receive pieces = (.ok payload, left)) :
    receiveAll pieces = (payload :: (receiveAll left).1, (receiveAll left).2) := by
  rw [receiveAll]
  split <;> simp_all

/-- A stream is received as the bytes of all its pieces are read. -/
theorem receiveAll_eq_readAll (pieces : List (List UInt8)) :
    receiveAll pieces = Frame.readAll pieces.flatten := by
  obtain ⟨left, hreceive, hleft⟩ := receive_read pieces
  cases hread : Frame.read pieces.flatten with
  | error e =>
    rw [hread] at hreceive
    rw [receiveAll_error hreceive, Frame.readAll_error hread]
  | ok out =>
    obtain ⟨payload, rest⟩ := out
    rw [hread] at hreceive
    have hshorter := receive_length_lt hreceive
    rw [receiveAll_ok hreceive, Frame.readAll_ok hread, receiveAll_eq_readAll left,
      hleft _ _ hread]
termination_by pieces.flatten.length
decreasing_by exact hshorter

/-! ## What is sent -/

/-- The bytes of the frames of payloads, one behind the other. -/
def frames (payloads : List (List UInt8)) : List UInt8 :=
  payloads.flatMap fun p => writeLength p.length ++ p

theorem frames_cons (p : List UInt8) (ps : List (List UInt8)) :
    frames (p :: ps) = writeLength p.length ++ (p ++ frames ps) := by
  rw [frames, List.flatMap_cons, List.append_assoc]
  rfl

theorem length_frames_cons (p : List UInt8) (ps : List (List UInt8)) :
    (frames (p :: ps)).length = 4 + p.length + (frames ps).length := by
  rw [frames_cons, List.length_append, List.length_append, Nat.add_assoc]
  rfl

/-- What a cut behind the length leaves of the first frame and those behind it. -/
theorem take_frames_cons {k : Nat} (h : 4 ≤ k) (p : List UInt8) (ps : List (List UInt8)) :
    (frames (p :: ps)).take k = writeLength p.length ++ (p ++ frames ps).take (k - 4) := by
  rw [frames_cons, List.take_append, List.take_of_length_le (Nat.le_trans (Nat.le_refl 4) h)]
  rfl

theorem send_eq_ok (h : payload.length ≤ maxSize) (written : List UInt8) :
    send written payload = (.ok (), written ++ writeLength payload.length ++ payload) :=
  if_neg (Nat.not_lt.2 h)

theorem sendAll_eq (h : ∀ p ∈ payloads, p.length ≤ maxSize) (written : List UInt8) :
    sendAll written payloads = (.ok (), written ++ frames payloads) := by
  induction payloads generalizing written with
  | nil => rw [sendAll, frames, List.flatMap_nil, List.append_nil]
  | cons p ps ih =>
    obtain ⟨hp, hps⟩ := List.forall_mem_cons.1 h
    rw [sendAll, send_eq_ok hp]
    dsimp only
    rw [ih hps, frames_cons, List.append_assoc, List.append_assoc]

/-! ## A stream that ends early -/

/-- What is read where a length is cut off. -/
theorem readAll_of_length_lt {bytes : List UInt8} (h : bytes.length < 4) :
    Frame.readAll bytes = ([], lost "reading length prefix") := by
  refine Frame.readAll_error ?_
  match bytes, h with
  | [], _ | [_], _ | [_, _], _ | [_, _, _], _ => rfl

/-- Of frames that are cut off somewhere, those before the cut are read. -/
theorem readAll_take_frames (h : ∀ p ∈ payloads, p.length ≤ maxSize) {k : Nat}
    (hk : k ≤ (frames payloads).length) :
    ∃ m ≤ payloads.length,
      Frame.readAll ((frames payloads).take k) = (payloads.take m,
        lost (if k < (frames (payloads.take m)).length + 4 then "reading length prefix"
          else "reading data")) ∧
      (frames (payloads.take m)).length ≤ k ∧
      ∀ n ≤ payloads.length, (frames (payloads.take n)).length ≤ k → n ≤ m := by
  induction payloads generalizing k with
  | nil =>
    have hk0 : k = 0 := Nat.le_zero.1 hk
    subst hk0
    exact ⟨0, Nat.le_refl _, readAll_of_length_lt (by decide), Nat.le_refl _, fun n hn _ => hn⟩
  | cons p ps ih =>
    obtain ⟨hp, hps⟩ := List.forall_mem_cons.1 h
    rw [length_frames_cons] at hk
    by_cases hwhole : 4 + p.length ≤ k
    · -- the first frame is there, and the cut is behind it
      obtain ⟨m, hm, hread, hle, hmost⟩ := ih hps (k := k - (4 + p.length)) (by omega)
      have hfirst : Frame.read ((frames (p :: ps)).take k) =
          .ok (p, (frames ps).take (k - (4 + p.length))) := by
        rw [take_frames_cons (by omega), Frame.read_length hp, if_neg, List.take_take,
          Nat.min_eq_left (by omega), List.take_left, List.drop_take, List.drop_left, Nat.sub_sub]
        rw [List.length_take, List.length_append]
        omega
      have hcut : k - (4 + p.length) < (frames (ps.take m)).length + 4 ↔
          k < 4 + p.length + (frames (ps.take m)).length + 4 := by omega
      refine ⟨m + 1, Nat.succ_le_succ hm, ?_, ?_, ?_⟩
      · rw [Frame.readAll_ok hfirst, hread, List.take_succ_cons, length_frames_cons]
        simp only [hcut]
      · rw [List.take_succ_cons, length_frames_cons]
        omega
      · intro n hn hnk
        cases n with
        | zero => exact Nat.zero_le _
        | succ n =>
          rw [List.take_succ_cons, length_frames_cons] at hnk
          exact Nat.succ_le_succ (hmost n (Nat.le_of_succ_le_succ hn) (by omega))
    · -- the cut is in the first frame
      refine ⟨0, Nat.zero_le _, ?_, Nat.zero_le _, ?_⟩
      · rw [List.take_zero]
        split
        · rename_i hlength
          exact readAll_of_length_lt (Nat.lt_of_le_of_lt (List.length_take_le _ _) hlength)
        · rename_i hlength
          refine Frame.readAll_error ?_
          rw [take_frames_cons (Nat.not_lt.1 hlength), Frame.read_length hp, if_pos]
          exact Nat.lt_of_le_of_lt (List.length_take_le _ _) (by omega)
      · intro n hn hnk
        cases n with
        | zero => exact Nat.le_refl _
        | succ n =>
          rw [List.take_succ_cons, length_frames_cons] at hnk
          omega

/-! ## The law of the stream -/

/-- A stream loses nothing and makes nothing up: payloads within the limit come out as they were sent,
in whatever pieces their bytes come; where the stream is cut off, those whose frames lie before the cut
come out, and then the connection is lost; a payload above the limit is refused and nothing of it is
written; and a length above the limit is refused with everything behind it unread. -/
theorem sent_is_received :
    (∀ payloads : List (List UInt8), (∀ p ∈ payloads, p.length ≤ maxSize) →
      sendAll [] payloads = (.ok (), frames payloads) ∧
      (∀ pieces, pieces.flatten = frames payloads →
        receiveAll pieces = (payloads, lost "reading length prefix")) ∧
      ∀ k ≤ (frames payloads).length, ∃ m ≤ payloads.length,
        (frames (payloads.take m)).length ≤ k ∧
        (∀ n ≤ payloads.length, (frames (payloads.take n)).length ≤ k → n ≤ m) ∧
        ∀ pieces, pieces.flatten = (frames payloads).take k →
          receiveAll pieces = (payloads.take m,
            lost (if k < (frames (payloads.take m)).length + 4 then "reading length prefix"
              else "reading data"))) ∧
    (∀ written payload : List UInt8, maxSize < payload.length →
      send written payload = (.error (tooLarge payload.length), written)) ∧
    ∀ (a b c d : UInt8) (rest : List UInt8) (pieces : List (List UInt8)),
      pieces.flatten = a :: b :: c :: d :: rest → maxSize < lengthOf a b c d →
      ∃ left, receive pieces = (.error (tooLarge (lengthOf a b c d)), left) ∧
        left.flatten = rest := by
  refine ⟨fun payloads h => ⟨sendAll_eq h [], fun pieces hpieces => ?_, fun k hk => ?_⟩,
    fun written payload h => if_pos h, fun a b c d rest pieces hpieces hlarge => ?_⟩
  · -- a cut behind the last byte leaves everything
    obtain ⟨m, hm, hread, -, hmost⟩ := readAll_take_frames h (Nat.le_refl _)
    have hall : payloads.length ≤ m := hmost _ (Nat.le_refl _) (Nat.le_of_eq (by rw [List.take_length]))
    rw [List.take_length, List.take_of_length_le hall, if_pos (by omega)] at hread
    rw [receiveAll_eq_readAll, hpieces, hread]
  · obtain ⟨m, hm, hread, hle, hmost⟩ := readAll_take_frames h hk
    exact ⟨m, hm, hle, hmost, fun pieces hpieces => by rw [receiveAll_eq_readAll, hpieces, hread]⟩
  · obtain ⟨left, hleft, heq⟩ := receive_length hpieces
    exact ⟨left, by rw [heq, if_pos hlarge], hleft⟩

/-- Two payloads, cut in the length of the second: the first comes out. One byte too much is not sent,
and the largest length is not waited for. -/
theorem second_is_cut :
    receiveAll [[0], [0, 0, 2, 1, 2, 0], [0, 0]] = ([[1, 2]], lost "reading length prefix") ∧
    send [7] (List.replicate (maxSize + 1) 0) = (.error (tooLarge (maxSize + 1)), [7]) ∧
    ∃ left, receive [[255, 255], [255, 255, 9]] = (.error (tooLarge 4294967295), left) ∧
      left.flatten = [9] := by
  obtain ⟨hlossless, hsend, hreceive⟩ := sent_is_received
  refine ⟨?_, ?_, hreceive 255 255 255 255 [9] [[255, 255], [255, 255, 9]] rfl (by decide)⟩
  · obtain ⟨-, -, hcut⟩ := hlossless [[1, 2], [3]] (by decide)
    obtain ⟨m, hm, hle, hmost, hout⟩ := hcut 9 (by decide)
    have hone : 1 ≤ m := hmost 1 (by decide) (by decide)
    have htwo : m ≠ 2 := by
      rintro rfl
      exact absurd hle (by decide)
    obtain rfl : m = 1 := by
      have : m ≤ 2 := hm
      omega
    exact hout _ rfl
  · have hlarge := hsend [7] (List.replicate (maxSize + 1) 0)
    rw [List.length_replicate] at hlarge
    exact hlarge (Nat.lt_succ_self _)

end Muster.Wire.Stream
