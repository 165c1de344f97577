/-
A string that has been written is read as it was, whatever characters it holds and whatever follows
it. Every character of the text that is written for one is either plain or an escape that stands
for the character.
-/
import Muster.Json.Scan
import Muster.Json.Write

namespace Muster.Json

open Utf8 (Piece pieces)

theorem pieces_append (cs ds : List Char) : pieces (cs ++ ds) = pieces cs ++ pieces ds :=
  List.map_append

theorem pieces_cons (c : Char) (cs : List Char) : pieces (c :: cs) = .char c :: pieces cs := rfl

/-! ## Escapes -/

theorem hexValue?_hexChar {d : Nat} (h : d < 16) : Digits.hexValue? (Digits.hexChar d) = some d := by
  revert d
  decide

/-- The escape of a control stands for it. -/
theorem takeUnicode_control {c : Char} (h : c.toNat < 0x20) (rest : Cursor) :
    takeUnicode (pieces (['0', '0'] ++ hexByte c.toNat) ++ rest) = some (c, rest) := by
  have hhigh : Digits.hexValue? (Digits.hexChar (c.toNat / 16 % 16)) = some (c.toNat / 16 % 16) :=
    hexValue?_hexChar (Nat.mod_lt _ (by decide))
  have hlow : Digits.hexValue? (Digits.hexChar (c.toNat % 16)) = some (c.toNat % 16) :=
    hexValue?_hexChar (Nat.mod_lt _ (by decide))
  have hzero : Digits.hexValue? '0' = some 0 := by decide
  have hhex : takeHex4 (pieces (['0', '0'] ++ hexByte c.toNat) ++ rest) = some (c.toNat, rest) := by
    show (do
      let a ← Digits.hexValue? '0'
      let b ← Digits.hexValue? '0'
      let u ← Digits.hexValue? (Digits.hexChar (c.toNat / 16 % 16))
      let v ← Digits.hexValue? (Digits.hexChar (c.toNat % 16))
      some (((a * 16 + b) * 16 + u) * 16 + v, rest)) = _
    rw [hzero, hhigh, hlow]
    show some (((0 * 16 + 0) * 16 + c.toNat / 16 % 16) * 16 + c.toNat % 16, rest) = _
    congr 2
    omega
  have hnot : isHighSurrogate c.toNat = false ∧ isLowSurrogate c.toNat = false := by
    unfold isHighSurrogate isLowSurrogate
    simp only [Bool.and_eq_false_iff, decide_eq_false_iff_not]
    omega
  unfold takeUnicode
  rw [hhex]
  show (if isHighSurrogate c.toNat = true then _ else
    if isLowSurrogate c.toNat = true then none else some (Char.ofNat c.toNat, rest)) = _
  rw [hnot.1, hnot.2, Char.ofNat_toNat]
  rfl

/-- The letter behind a backslash that is no `u` stands for one character. -/
theorem takeChars_simple {e c : Char} (hu : e ≠ 'u') (h : simpleEscape? e = some c) (p : Piece)
    (fuel rest : Cursor) : takeChars (p :: fuel) (pieces ['\\', e] ++ rest) =
      (takeChars fuel rest).map fun r => (c :: r.1, r.2) := by
  show takeChars (p :: fuel) (.char '\\' :: .char e :: rest) = _
  rw [takeChars.eq_def]
  split
  · rename_i heq; cases heq
  · rename_i heq; cases heq
    split
    · rename_i heq; cases heq
    · rename_i heq; cases heq; exact absurd rfl hu
    · rename_i heq; cases heq
      rw [h]
      cases takeChars fuel rest <;> rfl
    · rename_i hne heq; cases heq; exact (hne e rest rfl rfl).elim
    · rename_i hne; exact (hne '\\' _ rfl).elim

/-- One character is read back from what is written for it. -/
theorem takeChars_escapeChar (c : Char) (p : Piece) (fuel rest : Cursor) :
    takeChars (p :: fuel) (pieces (escapeChar c) ++ rest) =
      (takeChars fuel rest).map fun r => (c :: r.1, r.2) := by
  unfold escapeChar
  -- the quote and the backslash, then the controls, then all that is written as it is
  split
  · subst_vars; exact takeChars_simple (by decide) (by decide) p fuel rest
  split
  · subst_vars; exact takeChars_simple (by decide) (by decide) p fuel rest
  split
  · rename_i hctl
    -- five controls have a letter of their own
    split
    · subst_vars; exact takeChars_simple (by decide) (by decide) p fuel rest
    split
    · subst_vars; exact takeChars_simple (by decide) (by decide) p fuel rest
    split
    · subst_vars; exact takeChars_simple (by decide) (by decide) p fuel rest
    split
    · subst_vars; exact takeChars_simple (by decide) (by decide) p fuel rest
    split
    · subst_vars; exact takeChars_simple (by decide) (by decide) p fuel rest
    · show (takeUnicode (pieces (['0', '0'] ++ hexByte c.toNat) ++ rest)).bind _ = _
      rw [takeUnicode_control hctl, Option.bind_some]
      show (takeChars fuel rest).bind _ = _
      cases takeChars fuel rest <;> rfl
  · rename_i hquote hslash hctl
    show takeChars (p :: fuel) (.char c :: rest) = _
    rw [takeChars.eq_def]
    split
    · rename_i heq; cases heq
    · rename_i heq; cases heq
      split
      · rename_i heq; cases heq; exact absurd rfl hquote
      · rename_i heq; cases heq; exact absurd rfl hslash
      · rename_i heq; cases heq; exact absurd rfl hslash
      · rename_i heq; cases heq
        rw [if_neg (by simp only [hslash, hctl, or_self, not_false_iff])]
        cases takeChars fuel rest <;> rfl
      · rename_i hne; exact (hne c rest rfl).elim

theorem escapeChar_ne_nil (c : Char) : escapeChar c ≠ [] := by
  unfold escapeChar
  repeat' split
  all_goals exact nofun

/-! ## Strings -/

/-- A string is read up to the quote that closes it, if its fuel is at least one step longer. -/
theorem takeChars_escaped (cs : List Char) {fuel : Cursor} (h : cs.length < fuel.length)
    (rest : Cursor) :
    takeChars fuel (pieces (cs.flatMap escapeChar) ++ .char '"' :: rest) = some (cs, rest) := by
  induction cs generalizing fuel with
  | nil =>
    obtain ⟨p, fuel, rfl⟩ := List.exists_cons_of_length_pos h
    rfl
  | cons c cs ih =>
    obtain ⟨p, fuel, rfl⟩ := List.exists_cons_of_length_pos (Nat.lt_of_le_of_lt (Nat.zero_le _) h)
    rw [List.flatMap_cons, pieces_append, List.append_assoc, takeChars_escapeChar,
      ih (Nat.lt_of_succ_lt_succ h), Option.map_some]

theorem length_le_escaped (cs : List Char) : cs.length ≤ (cs.flatMap escapeChar).length := by
  induction cs with
  | nil => exact Nat.le_refl 0
  | cons c cs ih =>
    have hpos : 0 < (escapeChar c).length := List.length_pos_iff.2 (escapeChar_ne_nil c)
    rw [List.flatMap_cons, List.length_append, List.length_cons]
    omega

/-- A string that has been written is read as it was. -/
theorem takeText_escaped (s : String) (rest : Cursor) :
    takeText (pieces (s.toList.flatMap escapeChar ++ ['"']) ++ rest) = some (s, rest) := by
  have hlen : s.toList.length < (bound (pieces (s.toList.flatMap escapeChar ++ ['"']) ++ rest)).length := by
    have := length_le_escaped s.toList
    simp only [bound, pieces, List.length_cons, List.length_append, List.length_map]
    omega
  unfold takeText
  rw [pieces_append, List.append_assoc] at hlen ⊢
  show (takeChars _ (pieces (s.toList.flatMap escapeChar) ++ .char '"' :: rest)).bind _ = _
  rw [takeChars_escaped _ hlen, Option.bind_some]
  simp only [String.ofList_toList]

end Muster.Json
