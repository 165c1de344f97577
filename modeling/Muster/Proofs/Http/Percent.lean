/-
Text that is spelled as bytes is read back as it was, if it has no percent sign of its own; so two such
texts are never spelled alike.
-/
import Mathlib.Data.List.Basic
import Muster.Http.Percent
import Muster.Proofs.Text.Utf8

namespace Muster.Http

variable {others cs : List Char}

theorem hexValue?_hexDigit {d : Nat} (h : d < 16) : Digits.hexValue? (hexDigit d) = some d := by
  revert d
  decide

theorem percentDecode_percentByte (b : UInt8) (cs : List Char) :
    percentDecode (percentByte b ++ cs) = b :: percentDecode cs := by
  have hb : b.toNat < 256 := b.toNat_lt
  show percentDecode ('%' :: hexDigit (b.toNat / 16) :: hexDigit (b.toNat % 16) :: cs) = _
  rw [percentDecode, hexValue?_hexDigit (by omega), hexValue?_hexDigit (by omega)]
  show (b.toNat / 16 * 16 + b.toNat % 16).toUInt8 :: percentDecode cs = _
  rw [Nat.div_add_mod' b.toNat 16]
  exact congrArg (· :: percentDecode cs) (UInt8.ofNat_toNat)

theorem percentDecode_bytes (bs : List UInt8) (cs : List Char) :
    percentDecode (bs.flatMap percentByte ++ cs) = bs ++ percentDecode cs := by
  induction bs with
  | nil => rfl
  | cons b bs ih =>
    rw [List.flatMap_cons, List.append_assoc, percentDecode_percentByte, ih, List.cons_append]

theorem percentDecode_cons {c : Char} (h : c ≠ '%') (cs : List Char) :
    percentDecode (c :: cs) = Utf8.encodeChar c ++ percentDecode cs := by
  rw [percentDecode]
  rintro a b ds rfl
  exact absurd rfl h

/-- The bytes of a text are read back from its spelling. -/
theorem percentDecode_percentEncode (h : '%' ∉ cs) :
    percentDecode (percentEncode others cs) = Utf8.encode cs := by
  induction cs with
  | nil => rfl
  | cons c cs ih =>
    obtain ⟨hc, hcs⟩ := not_or.1 (List.mem_cons.not.1 h)
    have hrest : percentDecode (percentEncode others cs) = Utf8.encode cs := ih hcs
    unfold percentEncode Utf8.encode at hrest ⊢
    rw [List.flatMap_cons, List.flatMap_cons]
    split
    · rw [percentDecode_bytes, hrest]
    · rw [List.singleton_append, percentDecode_cons (Ne.symm hc), hrest]

/-- Different texts are spelled differently. -/
theorem map_percentEncode_inj {ps qs : List (List Char)} (hps : ∀ p ∈ ps, '%' ∉ p)
    (hqs : ∀ p ∈ qs, '%' ∉ p) (h : ps.map (percentEncode others) = qs.map (percentEncode others)) :
    ps = qs := by
  have hread {ps : List (List Char)} (hps : ∀ p ∈ ps, '%' ∉ p) :
      (ps.map (percentEncode others)).map (fun p => Utf8.decodeLossy (percentDecode p)) = ps := by
    rw [List.map_map]
    refine (List.map_congr_left fun p hp => ?_).trans (List.map_id ps)
    rw [Function.comp_apply, percentDecode_percentEncode (hps p hp), Utf8.decodeLossy_encode, id]
  rw [← hread hps, h, hread hqs]

/-- The spelling of a text has no slash that the text has not. -/
theorem slash_not_mem_percentEncode (h : '/' ∉ cs) : '/' ∉ percentEncode others cs := by
  have hbyte (b : UInt8) : '/' ∉ percentByte b := by
    have hdigit {d : Nat} (hd : d < 16) : '/' ≠ hexDigit d := by
      revert d
      decide
    have hb : b.toNat < 256 := b.toNat_lt
    simp only [percentByte, List.mem_cons, List.not_mem_nil, or_false, not_or]
    exact ⟨by decide, hdigit (by omega), hdigit (by omega)⟩
  intro hmem
  obtain ⟨c, hc, hslash⟩ := List.mem_flatMap.1 hmem
  split at hslash
  · obtain ⟨b, -, hb⟩ := List.mem_flatMap.1 hslash
    exact hbyte b hb
  · exact h (List.mem_singleton.1 hslash ▸ hc)

end Muster.Http
