/-
The record of an instance as it is stored: whatever its texts are, its JSON form is read as the same
record, provided that it is valid. The record that an instance publishes of itself always is.
-/
import Muster.Proofs.Json.Record
import Muster.Proofs.Text.Blank
import Muster.Registry.Record

namespace Muster

theorem isBlank_digit {c : Char} (h : (Digits.value? c).isSome = true) : isBlank c = false := by
  unfold Digits.value? at h
  split at h
  · simp only [isBlank, Bool.or_eq_false_iff, Bool.and_eq_false_iff, decide_eq_false_iff_not,
      beq_eq_false_iff_ne]
    omega
  · cases h

/-- The text of an address has a point or a colon. -/
theorem Ip.mark_mem_toText (ip : Ip) : '.' ∈ ip.toText.toList ∨ ':' ∈ ip.toText.toList := by
  cases ip with
  | v4 bits =>
    left
    simp [toText, writeV4]
  | v6 bits =>
    right
    rw [toText, String.toList_ofList, writeV6]
    split
    · exact List.mem_append_left _ List.mem_cons_self
    · unfold writeCompressed
      dsimp only
      split
      · simp
      · simp [writeGroups, groupsOf, List.range_succ]

namespace Registry.Record

open Json (Value Takes takes_readText takes_readVariant)

theorem lookup_name (k : Kind) : Kind.all.lookup k.name = some k := by
  cases k <;> decide

/-- The members of a record fill its fields one after another. -/
theorem takes_toJson (room : Nat) (r : Record) : Takes schema.read (room + 1) r.toJson.write r := by
  refine Json.Schema.takes_object (s := ⟨r.version, r.ip, r.port, r.kind, r.lastModified⟩) ?_ rfl rfl
  refine .member rfl rfl ((takes_readText room r.version).field _ _ _ _) ?_
  refine .member rfl rfl ((takes_readText room r.ip).field _ _ _ _) ?_
  refine .member rfl rfl ((takes_readText room r.port).field _ _ _ _) ?_
  refine .member rfl rfl ((takes_readVariant room (lookup_name r.kind)).field _ _ _ _) ?_
  exact .member rfl rfl ((takes_readText room r.lastModified).field _ _ _ _) (.done _)

/-- A record that has been written is read as it was, if it is valid. -/
theorem decode_encode {r : Record} (h : r.validate = .ok ()) : decode r.encode = .ok r := by
  unfold decode encode Value.render
  rw [String.toList_ofList, (takes_toJson _ r).readWhole]
  show r.validate.bind (fun _ => .ok r) = _
  rw [h]
  rfl

/-- A record that is not valid is called so. -/
theorem validate_error {r : Record} {f : Fault} (h : r.validate = .error f) :
    ∃ cause, f = .invalidRecord cause := by
  unfold validate at h
  split at h
  · cases h; exact ⟨_, rfl⟩
  · split at h
    · cases h; exact ⟨_, rfl⟩
    · cases h

/-- An instance has an address and a port. -/
theorem validate_ofInstance (ip : Ip) (port : Nat) (kind : Kind) (version now : String) :
    (ofInstance ip port kind version now).validate = .ok () := by
  have hport : trimBlanks (Digits.text port) ≠ "" := by
    obtain ⟨c, cs, hwrite, hdigit⟩ := Digits.write_eq_cons port
    apply trimBlanks_ne_empty (c := c) _ (isBlank_digit hdigit)
    rw [Digits.text, String.toList_ofList, hwrite]
    exact List.mem_cons_self
  have hip : trimBlanks ip.toText ≠ "" := by
    rcases ip.mark_mem_toText with hmark | hmark
    · exact trimBlanks_ne_empty hmark (by decide)
    · exact trimBlanks_ne_empty hmark (by decide)
  unfold validate
  rw [if_neg (show trimBlanks (ofInstance ip port kind version now).port ≠ "" from hport),
    if_neg (show trimBlanks (ofInstance ip port kind version now).ip ≠ "" from hip)]

end Registry.Record

end Muster
