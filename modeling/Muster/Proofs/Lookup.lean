/-
Lookups in lists of pairs. What is found is in the list, and is what stands there if no key stands
twice; what is found after an entry is added, removed or changed.
-/
import Mathlib.Data.List.Nodup

namespace Muster

variable {κ β : Type} [BEq κ] [LawfulBEq κ]

/-- What is found is in the list. -/
theorem mem_of_lookup {k : κ} {b : β} {l : List (κ × β)} (h : l.lookup k = some b) : (k, b) ∈ l := by
  obtain ⟨front, back, rfl, -⟩ := List.lookup_eq_some_iff.1 h
  exact List.mem_append_right _ List.mem_cons_self

variable [DecidableEq κ]

theorem lookup_cons_if (k m : κ) (b : β) (l : List (κ × β)) :
    ((k, b) :: l).lookup m = if m = k then some b else l.lookup m := by
  rw [List.lookup_cons]
  by_cases hm : m = k
  · rw [hm, beq_self_eq_true, if_pos rfl]
  · rw [beq_false_of_ne hm, if_neg hm]

/-- What is in the list is found, if no key stands twice. -/
theorem lookup_of_mem {k : κ} {b : β} {l : List (κ × β)} (hnodup : (l.map (·.1)).Nodup)
    (hmem : (k, b) ∈ l) : l.lookup k = some b := by
  induction l with
  | nil => cases hmem
  | cons x l ih =>
    obtain ⟨m, d⟩ := x
    obtain ⟨hm, hnodup⟩ := List.nodup_cons.1 hnodup
    rw [lookup_cons_if]
    rcases List.mem_cons.1 hmem with heq | htail
    · cases heq
      exact if_pos rfl
    · have hkm : k ≠ m := by
        rintro rfl
        exact hm (List.mem_map.2 ⟨(k, b), htail, rfl⟩)
      rw [if_neg hkm]
      exact ih hnodup htail

theorem lookup_filter_bne (name m : κ) (l : List (κ × β)) :
    (l.filter (·.1 != name)).lookup m = if m = name then none else l.lookup m := by
  induction l with
  | nil => split <;> rfl
  | cons x l ih =>
    obtain ⟨k, b⟩ := x
    by_cases hk : k = name
    · rw [List.filter_cons_of_neg (by simp [hk]), ih, lookup_cons_if, hk]
      by_cases hm : m = name <;> simp only [hm, if_true, if_false]
    · rw [List.filter_cons_of_pos (by simp [hk]), lookup_cons_if, lookup_cons_if, ih]
      by_cases hm : m = name
      · rw [hm, if_neg (Ne.symm hk), if_pos rfl, if_pos rfl]
      · rw [if_neg hm, if_neg hm]

theorem lookup_map_at (id j : κ) (f : β → β) (l : List (κ × β)) :
    (l.map fun (k, b) => if k = id then (k, f b) else (k, b)).lookup j =
      if j = id then (l.lookup j).map f else l.lookup j := by
  induction l with
  | nil => split <;> rfl
  | cons x l ih =>
    obtain ⟨k, b⟩ := x
    rw [List.map_cons, lookup_cons_if]
    by_cases hk : k = id
    · simp only [hk, if_true]
      rw [lookup_cons_if, ih]
      by_cases hj : j = id <;> simp only [hj, if_true, if_false, Option.map_some]
    · simp only [hk, if_false]
      rw [lookup_cons_if, ih]
      by_cases hj : j = k
      · rw [if_pos hj, if_pos hj, if_neg (hj ▸ hk)]
      · rw [if_neg hj, if_neg hj]

end Muster
