/-
The store against its ledger, the sequence of all mutations since it was empty. The events are
numbered from one; the history is the end of the ledger that the capacity allows; and a watcher that
is not refused finds what a search of the whole ledger finds.
-/
import Muster.Store.Basic

namespace Muster.Store

/-- All mutations of a store, and what it keeps of them. -/
structure Ledger (all : List Event) (s : Store) : Prop where
  capacity : 1 ≤ s.capacity
  count : s.index = all.length
  numbers : all.map (·.index) = List.range' 1 all.length
  cleared : s.clearedUpTo = all.length - s.capacity
  retained : s.history = all.drop s.clearedUpTo
  mutations : ∀ e ∈ all, e.action.isMutation = true

theorem ledger_empty (capacity : Nat) : Ledger [] (empty capacity) :=
  ⟨Nat.le_max_right capacity 1, rfl, rfl, (Nat.zero_sub _).symm, rfl, by simp⟩

variable {all : List Event} {s : Store}

/-- A mutation is entered under the next number. -/
theorem Ledger.record (h : Ledger all s) {action : Action} (ha : action.isMutation = true)
    (key : String) :
    Ledger (all ++ [⟨action, key, s.index + 1⟩]) (s.record action key) := by
  obtain ⟨hcap, hcount, hnum, hclr, hret, hmut⟩ := h
  have hle : s.clearedUpTo ≤ all.length := by omega
  refine ⟨hcap, ?_, ?_, ?_, ?_, ?_⟩
  · simp [Store.record, hcount]
  · rw [List.map_append, hnum, List.length_append, List.length_singleton, List.range'_concat]
    simp [hcount, Nat.add_comm]
  · simp only [Store.record, hret, List.length_append, List.length_drop, List.length_singleton]
    omega
  · -- dropping from what was retained is dropping more from the ledger
    simp only [Store.record, hret]
    rw [← List.drop_append_of_le_length hle, List.drop_drop]
  · intro e he
    rcases List.mem_append.1 he with he | he
    · exact hmut e he
    · rw [List.mem_singleton] at he
      subst he; exact ha

theorem Ledger.withEntries (h : Ledger all s) (entries : List Entry) :
    Ledger all { s with entries } := { h with }

/-- What a write leaves: the mutation is recorded, or nothing has changed. -/
theorem create_cases (s : Store) (key value : String) :
    (∃ entries, s.create key value = .ok { s.record .create key with entries }) ∨
      s.create key value = .error (.conflict key) := by
  unfold create
  split
  · exact .inr rfl
  · exact .inl ⟨_, rfl⟩

theorem delete_cases (s : Store) (key : String) :
    (∃ entries, s.delete key = .ok { s.record .delete key with entries }) ∨
      s.delete key = .error (.notFound key) := by
  unfold delete
  split
  · exact .inr rfl
  · exact .inl ⟨_, rfl⟩

theorem Ledger.index_le (h : Ledger all s) {e : Event} (he : e ∈ all) :
    1 ≤ e.index ∧ e.index ≤ s.index := by
  have : e.index ∈ List.range' 1 all.length := h.numbers ▸ List.mem_map_of_mem he
  rw [List.mem_range'_1] at this
  rw [h.count]; omega

/-- What has left the history has the numbers up to the last one that is cleared. -/
theorem Ledger.index_le_of_mem_take (h : Ledger all s) {e : Event}
    (he : e ∈ all.take s.clearedUpTo) : e.index ≤ s.clearedUpTo := by
  have hmem : e.index ∈ (List.range' 1 all.length).take s.clearedUpTo := by
    rw [← h.numbers, ← List.map_take]; exact List.mem_map_of_mem he
  rw [List.take_range'_of_length_ge (by have := h.cleared; omega), List.mem_range'_1] at hmem
  omega

/-- A watcher whose index is still retained finds the first event of the whole ledger that it looks
for. -/
theorem Ledger.eventFrom (h : Ledger all s) (dir : String) {start : Nat}
    (hstart : s.clearedUpTo < start) :
    s.eventFrom dir start =
      .ok (all.find? fun e => start ≤ e.index && Path.isUnder dir e.key) := by
  have hnone : ((all.take s.clearedUpTo).find? fun e =>
      start ≤ e.index && Path.isUnder dir e.key) = none := by
    refine List.find?_eq_none.2 fun e he => ?_
    have := h.index_le_of_mem_take he
    simp only [Bool.and_eq_true, decide_eq_true_eq, not_and]
    omega
  unfold Store.eventFrom
  rw [if_neg (by omega), h.retained]
  conv => rhs; rw [← List.take_append_drop s.clearedUpTo all, List.find?_append, hnone]
  rw [Option.none_or]

/-- What a watcher is given stands in the ledger, is under its directory and is not too early. -/
theorem Ledger.found (h : Ledger all s) {dir : String} {start : Nat} {e : Event}
    (he : s.eventFrom dir start = .ok (some e)) :
    e ∈ all ∧ start ≤ e.index ∧ Path.isUnder dir e.key = true := by
  unfold Store.eventFrom at he
  split at he
  · cases he
  · simp only [Except.ok.injEq] at he
    have hp := List.find?_some he
    simp only [Bool.and_eq_true, decide_eq_true_eq] at hp
    have hmem := List.mem_of_find?_eq_some he
    rw [h.retained] at hmem
    exact ⟨List.mem_of_mem_drop hmem, hp⟩

end Muster.Store
