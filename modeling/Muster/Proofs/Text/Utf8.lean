/-
Text that has been written as UTF-8 is read as it was: every character takes exactly its own bytes
off the front, and none of the stretches that are read is stray.
-/
import Muster.Text.Utf8

namespace Muster.Utf8

/-- The codes of characters leave out the surrogates. -/
theorem toNat_cases (c : Char) : c.toNat < 0xD800 ∨ 0xDFFF < c.toNat ∧ c.toNat < 0x110000 := c.valid

theorem toNat_toUInt8 {n : Nat} (h : n < 256) : n.toUInt8.toNat = n :=
  Nat.mod_eq_of_lt h

/-- The last bits of a code, as a continuation byte. -/
theorem isContinuation_low (n : Nat) : isContinuation (0x80 + n % 64).toUInt8 = true := by
  unfold isContinuation
  rw [toNat_toUInt8 (by omega)]
  simp only [Bool.and_eq_true, decide_eq_true_eq]
  omega

/-- A lead byte of a character with two bytes. -/
theorem lead?_two {b : Nat} (hlow : 0xC2 ≤ b) (hhigh : b < 0xE0) : lead? b = some { trail := 1 } := by
  unfold lead?
  rw [if_neg (by omega), if_pos hhigh]

/-- A lead byte of a character with three bytes, and what it admits as the second one: neither what
two bytes would do for, nor a surrogate. -/
theorem lead?_three {n : Nat} (hlow : 0x800 ≤ n) (hhigh : n < 0x10000)
    (h : n < 0xD800 ∨ 0xDFFF < n) :
    ∃ l, lead? (0xE0 + n / 4096) = some l ∧ l.trail = 2 ∧ l.low ≤ 0x80 + n / 64 % 64 ∧
      0x80 + n / 64 % 64 ≤ l.high := by
  unfold lead?
  rw [if_neg (by omega), if_neg (by omega)]
  split
  · exact ⟨_, rfl, rfl, by dsimp only; omega, by dsimp only; omega⟩
  · split
    · exact ⟨_, rfl, rfl, by dsimp only; omega, by dsimp only; omega⟩
    · rw [if_pos (by omega)]
      exact ⟨_, rfl, rfl, by dsimp only; omega, by dsimp only; omega⟩

/-- A lead byte of a character with four bytes, and what it admits as the second one: neither what
three bytes would do for, nor what no character has. -/
theorem lead?_four {n : Nat} (hlow : 0x10000 ≤ n) (hhigh : n < 0x110000) :
    ∃ l, lead? (0xF0 + n / 262144) = some l ∧ l.trail = 3 ∧ l.low ≤ 0x80 + n / 4096 % 64 ∧
      0x80 + n / 4096 % 64 ≤ l.high := by
  unfold lead?
  rw [if_neg (by omega), if_neg (by omega), if_neg (by omega), if_neg (by omega), if_neg (by omega)]
  split
  · exact ⟨_, rfl, rfl, by dsimp only; omega, by dsimp only; omega⟩
  · split
    · exact ⟨_, rfl, rfl, by dsimp only; omega, by dsimp only; omega⟩
    · rw [if_pos (by omega)]
      exact ⟨_, rfl, rfl, by dsimp only; omega, by dsimp only; omega⟩

/-- A character is read off the front from its own bytes. -/
theorem read_encodeChar (c : Char) (s : List UInt8) : read (encodeChar c ++ s) = .char c :: read s := by
  have hc := toNat_cases c
  have hself : Char.ofNat c.toNat = c := Char.ofNat_toNat c
  generalize hn : c.toNat = n at hc hself
  unfold encodeChar
  rw [hn]
  dsimp only
  split
  · have hb : n.toUInt8.toNat = n := toNat_toUInt8 (by omega)
    rw [List.singleton_append, read, hb, if_pos ‹_›, hself]
  split
  · have ha : (0xC0 + n / 64).toUInt8.toNat = 0xC0 + n / 64 := toNat_toUInt8 (by omega)
    have hb : (0x80 + n % 64).toUInt8.toNat = 0x80 + n % 64 := toNat_toUInt8 (by omega)
    have hcode : (0xC0 + n / 64 - 0xC0) * 64 + (0x80 + n % 64 - 0x80) = n := by omega
    rw [List.cons_append, read, ha, if_neg (by omega), lead?_two (by omega) (by omega)]
    simp only [List.singleton_append, hb, if_true, hcode, hself]
    rw [if_neg (by omega)]
  split
  · obtain ⟨l, hl, htrail, hlow, hhigh⟩ := lead?_three (n := n) (by omega) ‹_› (by omega)
    have ha : (0xE0 + n / 4096).toUInt8.toNat = 0xE0 + n / 4096 := toNat_toUInt8 (by omega)
    have hb : (0x80 + n / 64 % 64).toUInt8.toNat = 0x80 + n / 64 % 64 := toNat_toUInt8 (by omega)
    have hd : (0x80 + n % 64).toUInt8.toNat = 0x80 + n % 64 := toNat_toUInt8 (by omega)
    have hcode : (0xE0 + n / 4096 - 0xE0) * 4096 + (0x80 + n / 64 % 64 - 0x80) * 64
        + (0x80 + n % 64 - 0x80) = n := by omega
    rw [List.cons_append, read, ha, if_neg (by omega), hl]
    simp only [List.cons_append, List.nil_append, hb, hd, htrail, isContinuation_low, hcode, hself]
    rw [if_neg (by omega), if_neg (by decide), if_neg (by decide), if_pos trivial]
  · obtain ⟨l, hl, htrail, hlow, hhigh⟩ := lead?_four (n := n) (by omega) (by omega)
    have ha : (0xF0 + n / 262144).toUInt8.toNat = 0xF0 + n / 262144 := toNat_toUInt8 (by omega)
    have hb : (0x80 + n / 4096 % 64).toUInt8.toNat = 0x80 + n / 4096 % 64 := toNat_toUInt8 (by omega)
    have hd : (0x80 + n / 64 % 64).toUInt8.toNat = 0x80 + n / 64 % 64 := toNat_toUInt8 (by omega)
    have he : (0x80 + n % 64).toUInt8.toNat = 0x80 + n % 64 := toNat_toUInt8 (by omega)
    have hcode : (0xF0 + n / 262144 - 0xF0) * 262144 + (0x80 + n / 4096 % 64 - 0x80) * 4096
        + (0x80 + n / 64 % 64 - 0x80) * 64 + (0x80 + n % 64 - 0x80) = n := by omega
    rw [List.cons_append, read, ha, if_neg (by omega), hl]
    simp only [List.cons_append, List.nil_append, hb, hd, he, htrail, isContinuation_low, hcode, hself]
    rw [if_neg (by omega), if_neg (by decide), if_neg (by decide), if_neg (by decide),
      if_neg (by decide)]

/-- Text that has been written is read as it was. -/
theorem read_encode (cs : List Char) : read (encode cs) = pieces cs := by
  induction cs with
  | nil => rfl
  | cons c cs ih =>
    have hcons : encode (c :: cs) = encodeChar c ++ encode cs := List.flatMap_cons
    rw [hcons, read_encodeChar, ih]
    rfl

theorem decodeLossy_encode (cs : List Char) : decodeLossy (encode cs) = cs := by
  rw [decodeLossy, read_encode, pieces, List.map_map]
  exact List.map_id cs

end Muster.Utf8
