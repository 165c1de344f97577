/-
A whole number that has been written is read as it was, if it fits its 64 bits and no number goes on
behind it. Its digits are those of its value, most significant first and without leading zeros, and
all of them fit a word.
-/
import Muster.Proofs.Json.Text

namespace Muster

namespace Digits

/-! ## The digits of a number -/

/-- The values of the decimal digits, most significant first. -/
def values (n : Nat) : List Nat :=
  if n < 10 then [n] else values (n / 10) ++ [n % 10]
termination_by n

theorem value?_digitChar {d : Nat} (h : d < 10) : value? (digitChar d) = some d := by
  revert d
  decide

theorem digitChar_mod (n : Nat) : digitChar (n % 10) = digitChar n := by
  unfold digitChar
  rw [Nat.mod_mod]

theorem write_eq_map (n : Nat) : write n = (values n).map digitChar := by
  induction n using Nat.strongRecOn with
  | ind n ih =>
    rw [write, values]
    split
    · rfl
    · rw [ih (n / 10) (by omega), List.map_append, List.map_singleton, digitChar_mod]

theorem values_lt (n : Nat) : ∀ d ∈ values n, d < 10 := by
  induction n using Nat.strongRecOn with
  | ind n ih =>
    rw [values]
    split
    · rename_i hn
      intro d hd
      rwa [List.mem_singleton.1 hd]
    · intro d hd
      rcases List.mem_append.1 hd with hd | hd
      · exact ih (n / 10) (by omega) d hd
      · rw [List.mem_singleton.1 hd]
        exact Nat.mod_lt n (by decide)

theorem values_ne_nil (n : Nat) : values n ≠ [] := by
  rw [values]
  split <;> simp

/-- Only zero begins with a zero. -/
theorem head?_values {n : Nat} (h : (values n).head? = some 0) : n = 0 := by
  induction n using Nat.strongRecOn with
  | ind n ih =>
    rw [values] at h
    split at h
    · exact Option.some.inj h
    · obtain ⟨d, ds, hd⟩ := List.exists_cons_of_ne_nil (values_ne_nil (n / 10))
      rw [hd] at h
      have htens : n / 10 = 0 := ih (n / 10) (by omega) (by rw [hd]; exact h)
      omega

/-- Several digits do not begin with a zero. -/
theorem values_ne_zero_cons (n d : Nat) (ds : List Nat) : values n ≠ 0 :: d :: ds := by
  intro h
  have hn : n = 0 := head?_values (by rw [h]; rfl)
  have hzero : values 0 = [0] := by rw [values]; rfl
  rw [hn, hzero] at h
  cases h

/-- The first character of a written number is a digit. -/
theorem write_eq_cons (n : Nat) : ∃ c cs, write n = c :: cs ∧ (value? c).isSome = true := by
  obtain ⟨d, ds, hd⟩ := List.exists_cons_of_ne_nil (values_ne_nil n)
  have hlt : d < 10 := values_lt n d (hd ▸ List.mem_cons_self)
  refine ⟨digitChar d, ds.map digitChar, ?_, ?_⟩
  · rw [write_eq_map, hd, List.map_cons]
  · rw [value?_digitChar hlt]; rfl

theorem foldl_values (n : Nat) : (values n).foldl (fun m d => m * 10 + d) 0 = n := by
  induction n using Nat.strongRecOn with
  | ind n ih =>
    rw [values]
    split
    · simp
    · rw [List.foldl_append, ih (n / 10) (by omega)]
      show n / 10 * 10 + n % 10 = n
      omega

end Digits

namespace Json

open Utf8 (Piece pieces)

/-! ## What follows a number -/

/-- No number goes on in a text. -/
def Delimited (cs : Cursor) : Prop :=
  ∀ c rest, cs = .char c :: rest → Digits.value? c = none ∧ c ≠ '.' ∧ c ≠ 'e' ∧ c ≠ 'E'

theorem delimited_nil : Delimited [] := nofun

theorem delimited_cons {c : Char} (h : Digits.value? c = none ∧ c ≠ '.' ∧ c ≠ 'e' ∧ c ≠ 'E')
    (rest : Cursor) : Delimited (.char c :: rest) := by
  rintro _ _ ⟨⟩
  exact h

theorem delimited_comma (rest : Cursor) : Delimited (.char ',' :: rest) :=
  delimited_cons (by decide) rest

theorem delimited_bracket (rest : Cursor) : Delimited (.char ']' :: rest) :=
  delimited_cons (by decide) rest

theorem delimited_brace (rest : Cursor) : Delimited (.char '\x7d' :: rest) :=
  delimited_cons (by decide) rest

theorem takeDigits_delimited {rest : Cursor} (h : Delimited rest) : takeDigits rest = ([], rest) := by
  match rest with
  | [] => rfl
  | .stray :: _ => rfl
  | .char c :: cs =>
    rw [takeDigits, (h c cs rfl).1]

/-- Digits are taken off the front as far as they go. -/
theorem takeDigits_map {ds : List Nat} (hds : ∀ d ∈ ds, d < 10) {rest : Cursor} (h : Delimited rest) :
    takeDigits (pieces (ds.map Digits.digitChar) ++ rest) = (ds, rest) := by
  induction ds with
  | nil => exact takeDigits_delimited h
  | cons d ds ih =>
    show takeDigits (.char (Digits.digitChar d) :: (pieces (ds.map Digits.digitChar) ++ rest)) = _
    rw [takeDigits, Digits.value?_digitChar (hds d List.mem_cons_self),
      ih fun e he => hds e (List.mem_cons_of_mem d he)]

/-! ## Numbers that fit -/

theorem le_foldl (ds : List Nat) (acc : Nat) : acc ≤ ds.foldl (fun m d => m * 10 + d) acc := by
  induction ds generalizing acc with
  | nil => exact Nat.le_refl acc
  | cons d ds ih => exact Nat.le_trans (by omega) (ih (acc * 10 + d))

/-- No digit is left over of a number that fits a word. -/
theorem fitDigits_fits (ds : List Nat) (acc : Nat)
    (h : ds.foldl (fun m d => m * 10 + d) acc ≤ maxWord) :
    fitDigits acc ds = (ds.foldl (fun m d => m * 10 + d) acc, []) := by
  induction ds generalizing acc with
  | nil => rfl
  | cons d ds ih =>
    have hle : acc * 10 + d ≤ maxWord := Nat.le_trans (le_foldl ds _) h
    rw [fitDigits, if_neg (Nat.not_lt.2 hle)]
    exact ih _ h

/-- Behind the digits of a whole number nothing of it follows. -/
theorem finishNumber_delimited {rest : Cursor} (h : Delimited rest) (negative : Bool) (n : Nat) :
    finishNumber negative n 0 rest =
      if !negative then some (.whole n, rest)
      else if n = 0 ∨ Nat.pow 2 63 < n then finishReal negative n 0 rest
      else some (.negative n, rest) := by
  unfold finishNumber
  split
  · exact absurd rfl (h _ _ rfl).2.1
  · exact absurd rfl (h _ _ rfl).2.2.1
  · exact absurd rfl (h _ _ rfl).2.2.2
  · rw [if_neg (by simp)]

theorem takeUnsigned_write {n : Nat} (hn : n ≤ maxWord) {rest : Cursor} (h : Delimited rest)
    (negative : Bool) :
    takeUnsigned negative (pieces (Digits.write n) ++ rest) = finishNumber negative n 0 rest := by
  unfold takeUnsigned
  rw [Digits.write_eq_map, takeDigits_map (Digits.values_lt n) h]
  split
  · rename_i heq
    exact absurd (congrArg Prod.fst heq) (Digits.values_ne_nil n)
  · rename_i heq
    exact absurd (congrArg Prod.fst heq) (Digits.values_ne_zero_cons n _ _)
  · rename_i heq
    cases heq
    have hfit := fitDigits_fits (Digits.values n) 0 (by rwa [Digits.foldl_values])
    rw [Digits.foldl_values] at hfit
    rw [hfit]
    rfl

/-- A number that stands in 64 bits as it is. -/
def Number.Fits : Number → Prop
  | .whole n => n < Nat.pow 2 64
  | .negative n => 0 < n ∧ n ≤ Nat.pow 2 63
  | .real _ => False

/-- A number that has been written is read as it was. -/
theorem takeNumber_write {n : Number} (hn : n.Fits) {rest : Cursor} (h : Delimited rest) :
    takeNumber (pieces n.write ++ rest) = some (n, rest) := by
  cases n with
  | whole n =>
    have hmax : n ≤ maxWord := Nat.le_sub_one_of_lt hn
    -- the first digit is no sign
    have hunsigned : takeNumber (pieces (Digits.write n) ++ rest) =
        takeUnsigned false (pieces (Digits.write n) ++ rest) := by
      obtain ⟨c, cs, hcs, hdigit⟩ := Digits.write_eq_cons n
      rw [hcs]
      unfold takeNumber
      split
      · rename_i heq
        cases heq
        exact absurd hdigit (by decide)
      · rfl
    show takeNumber (pieces (Digits.write n) ++ rest) = _
    rw [hunsigned, takeUnsigned_write hmax h, finishNumber_delimited h]
    rfl
  | negative n =>
    obtain ⟨hpos, hle⟩ := hn
    have hmax : n ≤ maxWord := Nat.le_trans hle (by decide)
    show takeUnsigned true (pieces (Digits.write n) ++ rest) = _
    rw [takeUnsigned_write hmax h, finishNumber_delimited h, if_neg (by decide),
      if_neg (by omega)]
  | real x => exact hn.elim

/-! ## How a number begins -/

theorem skipSpace_of_not {c : Char} (h : isSpace c = false) (cs : Cursor) :
    skipSpace (.char c :: cs) = .char c :: cs := by
  rw [skipSpace, h]
  rfl

theorem ne_of_digit {c d : Char} (hc : (Digits.value? c).isSome = true)
    (hd : (Digits.value? d).isSome = false) : c ≠ d := by
  rintro rfl
  rw [hc] at hd
  cases hd

/-- A written number begins with a digit or a sign. -/
theorem Number.write_eq_cons {n : Number} (h : n.Fits) :
    ∃ c cs, n.write = c :: cs ∧ (c = '-' ∨ (Digits.value? c).isSome = true) := by
  cases n with
  | whole n =>
    obtain ⟨c, cs, hcs, hc⟩ := Digits.write_eq_cons n
    exact ⟨c, cs, hcs, .inr hc⟩
  | negative n => exact ⟨'-', _, rfl, .inl rfl⟩
  | real x => exact h.elim

/-- What no number begins with. -/
theorem ne_of_number {c d : Char} (hc : c = '-' ∨ (Digits.value? c).isSome = true) (hsign : d ≠ '-')
    (hd : (Digits.value? d).isSome = false) : c ≠ d := by
  rcases hc with rfl | hc
  · exact hsign.symm
  · exact ne_of_digit hc hd

theorem isSpace_of_number {c : Char} (hc : c = '-' ∨ (Digits.value? c).isSome = true) :
    isSpace c = false := by
  unfold isSpace
  simp only [Bool.or_eq_false_iff, beq_eq_false_iff_ne]
  exact ⟨⟨⟨ne_of_number hc (by decide) (by decide), ne_of_number hc (by decide) (by decide)⟩,
    ne_of_number hc (by decide) (by decide)⟩, ne_of_number hc (by decide) (by decide)⟩

end Json
end Muster
