/-
What a selection of entries depends on: a mutation of a key that it leaves out does not show. So a
list call depends on the entries below its directory.
-/
import Muster.Store.Basic

namespace Muster.Store

/-- An entry that is left out of a selection may stand anywhere. -/
theorem filter_insertEntry {p : Entry → Bool} {e : Entry} (he : p e = false) :
    ∀ entries : List Entry, (insertEntry e entries).filter p = entries.filter p
  | [] => by rw [insertEntry, List.filter_cons_of_neg (by simp [he])]
  | f :: rest => by
    rw [insertEntry]
    split
    · rw [List.filter_cons_of_neg (by simp [he])]
    · rw [List.filter_cons, List.filter_cons, filter_insertEntry he rest]

theorem list_congr {s t : Store} {dir : String}
    (h : (t.entries.filter fun e => e.key != dir && Path.isUnder dir e.key) =
      s.entries.filter fun e => e.key != dir && Path.isUnder dir e.key) :
    t.list dir = s.list dir := by
  unfold list
  rw [h]

variable {s t : Store} {dir key value : String}

/-- A selection that leaves out the key that is written does not show the write. -/
theorem filter_of_create {p : Entry → Bool} (h : s.create key value = .ok t)
    (hp : ∀ e : Entry, e.key = key → p e = false) : t.entries.filter p = s.entries.filter p := by
  unfold create at h
  split at h
  · cases h
  · cases h
    exact filter_insertEntry (hp _ rfl) _

theorem filter_of_delete {p : Entry → Bool} (h : s.delete key = .ok t)
    (hp : ∀ e : Entry, e.key = key → p e = false) : t.entries.filter p = s.entries.filter p := by
  unfold delete at h
  split at h
  · cases h
  · cases h
    show (s.entries.filter fun e => e.key != key).filter _ = _
    rw [List.filter_filter]
    refine List.filter_congr fun e _ => ?_
    by_cases he : e.key = key
    · simp [he, hp e he]
    · simp [he]

theorem list_of_create (h : s.create key value = .ok t) (hu : Path.isUnder dir key = false) :
    t.list dir = s.list dir :=
  list_congr (filter_of_create h fun e he => by simp [he, hu])

theorem list_of_delete (h : s.delete key = .ok t) (hu : Path.isUnder dir key = false) :
    t.list dir = s.list dir :=
  list_congr (filter_of_delete h fun e he => by simp [he, hu])

end Muster.Store
