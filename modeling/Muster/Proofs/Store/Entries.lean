/-
The entries of a store as a set: what is found under a key is an entry of that key, a write adds one
entry, and a deletion takes away those of its key.
-/
import Muster.Store.Basic

namespace Muster.Store

variable {s : Store} {key value : String} {e : Entry}

theorem mem_insertEntry {f : Entry} : ∀ {entries : List Entry},
    e ∈ insertEntry f entries ↔ e = f ∨ e ∈ entries
  | [] => by simp [insertEntry]
  | g :: rest => by
    rw [insertEntry]
    split
    · rw [List.mem_cons]
    · rw [List.mem_cons, List.mem_cons, mem_insertEntry]
      exact or_left_comm

theorem find?_some {entries : List Entry} (h : find? key entries = some e) :
    e ∈ entries ∧ e.key = key :=
  ⟨List.mem_of_find?_eq_some h, by simpa using List.find?_some h⟩

theorem find?_none {entries : List Entry} (h : find? key entries = none) :
    ∀ e ∈ entries, e.key ≠ key := by
  intro e he
  simpa using List.find?_eq_none.1 h e he

/-- What a write does at a free key. -/
theorem create_free (h : find? key s.entries = none) (value : String) :
    ∃ t, s.create key value = .ok t ∧
      ∀ e, e ∈ t.entries ↔ e = ⟨key, value, s.index + 1⟩ ∨ e ∈ s.entries := by
  unfold create
  rw [h]
  exact ⟨_, rfl, fun e => mem_insertEntry⟩

theorem create_taken (h : find? key s.entries = some e) (value : String) :
    s.create key value = .error (.conflict key) := by
  unfold create
  rw [h]

/-- What a deletion does at a key that is there. -/
theorem delete_held (h : find? key s.entries = some e) :
    ∃ t, s.delete key = .ok t ∧ ∀ f, f ∈ t.entries ↔ f ∈ s.entries ∧ f.key ≠ key := by
  unfold delete
  rw [h]
  refine ⟨_, rfl, fun f => ?_⟩
  show f ∈ s.entries.filter (·.key != key) ↔ _
  rw [List.mem_filter, bne_iff_ne]

theorem delete_missing (h : find? key s.entries = none) :
    s.delete key = .error (.notFound key) := by
  unfold delete
  rw [h]

theorem get_held (h : find? key s.entries = some e) : s.get key = .ok e := by
  unfold get
  rw [h]

theorem get_missing (h : find? key s.entries = none) : s.get key = .error (.notFound key) := by
  unfold get
  rw [h]

end Muster.Store
