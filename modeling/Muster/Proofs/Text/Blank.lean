/-
What cutting off blanks leaves of a text.
-/
import Mathlib.Data.List.TakeWhile
import Muster.Text.Blank

namespace Muster

/-- Something is left of a text that is more than blanks. -/
theorem trimBlanks_ne_empty {s : String} {c : Char} (hc : c ∈ s.toList) (h : isBlank c = false) :
    trimBlanks s ≠ "" := by
  have hfront : c ∈ s.toList.dropWhile isBlank := by
    rw [← List.takeWhile_append_dropWhile (p := isBlank) (l := s.toList)] at hc
    rcases List.mem_append.1 hc with hblank | hc
    · rw [List.mem_takeWhile_imp hblank] at h
      cases h
    · exact hc
  intro hempty
  have hnil : (s.toList.dropWhile isBlank).reverse.dropWhile isBlank = [] := by
    simpa [trimBlanks] using congrArg String.toList hempty
  rw [List.dropWhile_eq_nil_iff.1 hnil c (List.mem_reverse.2 hfront)] at h
  cases h

end Muster
