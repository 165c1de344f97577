/-
A frame is read as it was written, whatever follows it; of a frame that has not come in whole, nothing
is read.
-/
import Muster.Wire.Frame

namespace Muster.Wire.Frame

variable {payload bytes : List UInt8}

theorem write_eq_ok : write payload = .ok bytes ↔
    payload.length ≤ maxSize ∧ bytes = writeLength payload.length ++ payload := by
  unfold write
  split
  · simp only [reduceCtorEq, false_iff, not_and]
    intro hle
    omega
  · simp only [Except.ok.injEq, eq_comm (a := bytes), iff_and_self]
    intro _
    omega

theorem lengthOf_writeLength {n : Nat} (h : n < Nat.pow 2 32) :
    lengthOf (n / 16777216 % 256).toUInt8 (n / 65536 % 256).toUInt8 (n / 256 % 256).toUInt8
      (n % 256).toUInt8 = n := by
  have hn : n < 4294967296 := h
  simp only [lengthOf, Nat.toUInt8_eq, UInt8.toNat_ofNat']
  omega

/-- What a frame begins with tells how long it is. -/
theorem read_length (h : payload.length ≤ maxSize) (rest : List UInt8) :
    read (writeLength payload.length ++ rest) =
      if rest.length < payload.length then .error (lost "reading data")
      else .ok (rest.take payload.length, rest.drop payload.length) := by
  have hlen : payload.length < Nat.pow 2 32 := Nat.lt_of_le_of_lt h (by decide)
  show (if maxSize < lengthOf _ _ _ _ then _ else _) = _
  rw [lengthOf_writeLength hlen, if_neg (Nat.not_lt.2 h)]
  rfl

theorem read_write (h : write payload = .ok bytes) (rest : List UInt8) :
    read (bytes ++ rest) = .ok (payload, rest) := by
  obtain ⟨hle, rfl⟩ := write_eq_ok.1 h
  rw [List.append_assoc, read_length hle, if_neg (by simp)]
  simp

theorem writeLength_lengthOf (a b c d : UInt8) : writeLength (lengthOf a b c d) = [a, b, c, d] := by
  have ha := a.toNat_lt
  have hb := b.toNat_lt
  have hc := c.toNat_lt
  have hd := d.toNat_lt
  simp only [writeLength, lengthOf, List.cons.injEq, and_true, ← UInt8.toNat_inj, Nat.toUInt8_eq,
    UInt8.toNat_ofNat']
  omega

/-- What is read is a payload within the limit, and stands at the front with its length. -/
theorem of_read {rest : List UInt8} (h : read bytes = .ok (payload, rest)) :
    payload.length ≤ maxSize ∧ bytes = writeLength payload.length ++ payload ++ rest := by
  match bytes with
  | [] | [_] | [_, _] | [_, _, _] => cases h
  | a :: b :: c :: d :: tail =>
    simp only [read] at h
    split at h
    · cases h
    · rename_i hle
      split at h
      · cases h
      · rename_i hmany
        cases h
        have hlen : (tail.take (lengthOf a b c d)).length = lengthOf a b c d := by
          rw [List.length_take]
          omega
        rw [hlen, writeLength_lengthOf, List.append_assoc, List.take_append_drop]
        exact ⟨Nat.not_lt.1 hle, rfl⟩

theorem read_whole (h : write payload = .ok bytes) : read bytes = .ok (payload, []) := by
  rw [← List.append_nil bytes, read_write h]

theorem write_ne_nil (h : write payload = .ok bytes) : bytes ≠ [] := by
  obtain ⟨-, rfl⟩ := write_eq_ok.1 h
  exact nofun

/-- A frame of which something is missing is not read. -/
theorem read_part {got rest : List UInt8} (h : write payload = .ok (got ++ rest)) (hrest : rest ≠ []) :
    ∃ doing, read got = .error (lost doing) := by
  obtain ⟨hle, heq⟩ := write_eq_ok.1 h
  by_cases hlen : got.length < 4
  · refine ⟨"reading length prefix", ?_⟩
    match got, hlen with
    | [], _ | [_], _ | [_, _], _ | [_, _, _], _ => rfl
  · -- the length is there, but not all of the payload
    have hprefix : writeLength payload.length <+: got :=
      List.prefix_of_prefix_length_le ⟨payload, rfl⟩ ⟨rest, heq⟩ (Nat.not_lt.1 hlen)
    obtain ⟨tail, rfl⟩ := hprefix
    rw [List.append_assoc, List.append_cancel_left_eq] at heq
    refine ⟨"reading data", ?_⟩
    rw [read_length hle, if_pos]
    have hpos := List.length_pos_iff.2 hrest
    rw [← heq, List.length_append]
    omega

/-! ## A whole stream -/

theorem readAll_error {e : Fault} (h : read bytes = .error e) : readAll bytes = ([], e) := by
  rw [readAll]
  split <;> simp_all

theorem readAll_ok {rest : List UInt8} (h : read bytes = .ok (payload, rest)) :
    readAll bytes = (payload :: (readAll rest).1, (readAll rest).2) := by
  rw [readAll]
  split <;> simp_all

end Muster.Wire.Frame
