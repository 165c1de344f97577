/-
What a target can be spelled as. A text is cut at its first mark, and the rest of it at its first
slash; whatever marks, colons and slashes stand behind these belong to the authority and to the endpoint.
So a text is read exactly if it has the three parts, there is one way only in which it has them, and the
target that is read is printed as that text. Main statement: `read_iff_spelled`.
-/
import Muster.Proofs.Store.Path
import Muster.Target

namespace Muster.Target

/-! ## The first place of a mark -/

section Cuts

variable {m : Char} {ms mark cs front back : List Char}

/-- What is cut is put together again with the mark between. -/
theorem eq_of_splitAtFirst (h : splitAtFirst mark cs = some (front, back)) :
    cs = front ++ (mark ++ back) := by
  induction cs generalizing front with
  | nil =>
    rw [splitAtFirst] at h
    split at h
    · rename_i hmark
      cases h
      rw [hmark]
      rfl
    · cases h
  | cons c cs ih =>
    rw [splitAtFirst] at h
    split at h
    · rename_i rest hrest
      cases h
      rw [Path.afterStart_iff.1 hrest]
      rfl
    · obtain ⟨⟨a, b⟩, hab, heq⟩ := Option.map_eq_some_iff.1 h
      cases heq
      rw [ih hab]
      rfl

/-- A text in front that does not hold the first character of the mark cannot hold the mark. -/
theorem splitAtFirst_append (hfront : m ∉ front) (ms back : List Char) :
    splitAtFirst (m :: ms) (front ++ (m :: ms ++ back)) = some (front, back) := by
  induction front with
  | nil =>
    rw [List.nil_append, List.cons_append, splitAtFirst, ← List.cons_append,
      Path.afterStart_iff.2 rfl]
  | cons c front ih =>
    obtain ⟨hc, hfront⟩ := not_or.1 (mt List.mem_cons.2 hfront)
    rw [List.cons_append, splitAtFirst, Path.afterStart, if_neg hc, ih hfront]
    rfl

/-- In front of the first place of a single character that character does not stand. -/
theorem not_mem_of_splitAtFirst (h : splitAtFirst [m] cs = some (front, back)) : m ∉ front := by
  induction cs generalizing front with
  | nil => cases h
  | cons c cs ih =>
    rw [splitAtFirst] at h
    split at h
    · cases h
      exact List.not_mem_nil
    · rename_i hnone
      obtain ⟨⟨a, b⟩, hab, heq⟩ := Option.map_eq_some_iff.1 h
      cases heq
      have hc : m ≠ c := by
        rintro rfl
        rw [Path.afterStart, if_pos rfl] at hnone
        cases hnone
      exact mt List.mem_cons.1 (not_or.2 ⟨hc, ih hab⟩)

end Cuts

/-! ## Parts -/

/-- The parts that can stand in the text of a target. -/
structure IsSound (t : Target) : Prop where
  named : t.scheme ≠ ""
  scheme : ∀ c ∈ t.scheme.toList, c.isAlphanum ∨ c = '+' ∨ c = '-' ∨ c = '.'
  authority : '/' ∉ t.authority.toList
  endpoint : t.endpoint ≠ ""

variable {t : Target} {raw : String}

theorem isScheme_iff {cs : List Char} : isScheme cs = true ↔
    cs ≠ [] ∧ ∀ c ∈ cs, c.isAlphanum ∨ c = '+' ∨ c = '-' ∨ c = '.' := by
  simp [isScheme, isSchemeChar, or_assoc]

/-- No mark begins inside a scheme. -/
theorem IsSound.colon_not_mem (h : t.IsSound) : ':' ∉ t.scheme.toList := by
  intro hcolon
  have := h.scheme ':' hcolon
  revert this
  decide

theorem toList_toText (t : Target) : t.toText.toList =
    t.scheme.toList ++ ([':', '/', '/'] ++ (t.authority.toList ++ (['/'] ++ t.endpoint.toList))) := by
  simp [toText]

/-! ## Reading and printing -/

/-- What is printed is read. -/
theorem IsSound.parse_toText (h : t.IsSound) : parse t.toText = .ok t := by
  have hmark := splitAtFirst_append h.colon_not_mem ['/', '/']
    (t.authority.toList ++ (['/'] ++ t.endpoint.toList))
  have hslash := splitAtFirst_append h.authority [] t.endpoint.toList
  have hnamed : t.scheme.toList ≠ [] := mt String.toList_eq_nil_iff.1 h.named
  have hscheme : isScheme t.scheme.toList = true := isScheme_iff.2 ⟨hnamed, h.scheme⟩
  have hendpoint : t.endpoint.toList ≠ [] := mt String.toList_eq_nil_iff.1 h.endpoint
  unfold parse
  rw [toList_toText, hmark]
  simp only [hscheme, hslash, Bool.not_true, Bool.false_eq_true, if_false, String.ofList_toList]

/-- What is read has been spelled. -/
theorem spelled_of_parse (h : parse raw = .ok t) : t.IsSound ∧ t.toText = raw := by
  unfold parse at h
  dsimp only at h
  split at h
  · cases h
  · rename_i scheme rest hmark
    split at h
    · cases h
    · rename_i hscheme
      split at h
      · cases h
      · cases h
      · rename_i authority endpoint hendpoint hslash
        cases h
        obtain ⟨hnamed, hchars⟩ := isScheme_iff.1 (by simpa using hscheme)
        refine ⟨⟨?_, ?_, ?_, ?_⟩, ?_⟩
        · simpa using hnamed
        · simpa using hchars
        · simpa using not_mem_of_splitAtFirst hslash
        · simpa using hendpoint
        · rw [← String.toList_inj, toList_toText, eq_of_splitAtFirst hmark, eq_of_splitAtFirst hslash]
          simp

theorem parse_ok_iff : parse raw = .ok t ↔ t.IsSound ∧ t.toText = raw := by
  constructor
  · exact spelled_of_parse
  · rintro ⟨hsound, rfl⟩
    exact hsound.parse_toText

/-- What is not read is refused by its name. -/
theorem parse_cases (raw : String) : (∃ t, parse raw = .ok t) ∨
    ∃ why, parse raw = .error (.invalidTarget ("'" ++ raw ++ "': " ++ why)) := by
  unfold parse
  dsimp only
  split
  · exact .inr ⟨_, rfl⟩
  · split
    · exact .inr ⟨_, rfl⟩
    · split
      · exact .inr ⟨_, rfl⟩
      · exact .inr ⟨_, rfl⟩
      · exact .inl ⟨_, rfl⟩

/-- A text is read exactly if it is a scheme of letters, digits, `+`, `-` and `.`, the mark, an authority
without slash, a slash and an endpoint, where scheme and endpoint are not empty. It is so in one way
only, and what is read is printed as the text. What is printed of such parts is read as them, whatever
else they hold. Any other text is refused by its name. -/
theorem read_iff_spelled (raw : String) :
    ((∃ t, parse raw = .ok t) ↔
      ∃ t : Target, t.IsSound ∧ raw = t.scheme ++ "://" ++ t.authority ++ "/" ++ t.endpoint) ∧
    (∀ t, parse raw = .ok t → t.IsSound ∧ t.toText = raw ∧ ∀ u : Target, u.IsSound →
      raw = u.scheme ++ "://" ++ u.authority ++ "/" ++ u.endpoint → u = t) ∧
    (∀ t : Target, t.IsSound → parse t.toText = .ok t) ∧
    ((∀ t, parse raw ≠ .ok t) →
      ∃ why, parse raw = .error (.invalidTarget ("'" ++ raw ++ "': " ++ why))) := by
  refine ⟨?_, ?_, ?_, ?_⟩
  · apply exists_congr
    intro t
    rw [parse_ok_iff, eq_comm (a := raw)]
    rfl
  · intro t ht
    obtain ⟨hsound, htext⟩ := parse_ok_iff.1 ht
    refine ⟨hsound, htext, ?_⟩
    intro u hu hraw
    have hread : parse raw = .ok u := parse_ok_iff.2 ⟨hu, hraw.symm⟩
    rw [ht] at hread
    cases hread
    rfl
  · intro t hsound
    exact hsound.parse_toText
  · intro hnone
    exact (parse_cases raw).resolve_left (not_exists.2 hnone)

/-- Marks, colons and slashes stand inside the parts; a blank in a scheme is refused. -/
theorem marks_inside_read :
    let t : Target := { scheme := "a.b+c", authority := "h:1:", endpoint := "x://y//z" }
    let raw := "a.b+c://h:1:/x://y//z"
    t.IsSound ∧ parse raw = .ok t ∧ t.toText = raw ∧
      (∀ u : Target, u.IsSound → raw = u.scheme ++ "://" ++ u.authority ++ "/" ++ u.endpoint → u = t) ∧
      ∃ why, parse "co rral:///orders" =
        .error (.invalidTarget ("'" ++ "co rral:///orders" ++ "': " ++ why)) := by
  intro t raw
  have hscheme : isScheme t.scheme.toList = true := by decide
  have hsound : t.IsSound := ⟨by decide, (isScheme_iff.1 hscheme).2, by decide, by decide⟩
  have hread : parse raw = .ok t := (read_iff_spelled raw).2.2.1 t hsound
  obtain ⟨-, htext, honly⟩ := (read_iff_spelled raw).2.1 t hread
  refine ⟨hsound, hread, htext, honly, ?_⟩
  apply (read_iff_spelled _).2.2.2
  have hrefused : parse "co rral:///orders" =
      .error (.invalidTarget "'co rral:///orders': invalid scheme") := by decide +kernel
  intro u hu
  rw [hrefused] at hu
  cases hu

end Muster.Target
