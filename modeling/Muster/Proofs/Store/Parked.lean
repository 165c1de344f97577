/-
What ends a wait that has begun. Whoever waits looks again and again from the same place, and in the
meantime mutations anywhere in the store take up the room of the history. So it is not only an event
of the directory that ends a wait: as many mutations as the history has room for do so too, wherever
they happen. Main statement: `parked_end`.
-/
import Muster.Proofs.Store.Following

namespace Muster.Watcher

/-- How a wait ends in the course of several turns, if it does: with the first look that finds an
end. -/
def end? {ι : Type} (w : Watcher ι) : Store → List Turn → Option (Except Fault Event)
  | _, [] => none
  | s, .look :: turns =>
    match w.outcome? s with
    | some r => some r
    | none => end? w s turns
  | s, t :: turns => end? w (s.turn t) turns

/-- What a single turn means for a wait. -/
def glance? {ι : Type} (w : Watcher ι) (s : Store) : Turn → Option (Except Fault Event)
  | .look => w.outcome? s
  | _ => none

variable {ι : Type} {w : Watcher ι} {s : Store}

theorem end?_cons (s : Store) (t : Turn) (turns : List Turn) :
    w.end? s (t :: turns) = (w.glance? s t).or (w.end? (s.turn t) turns) := by
  cases t with
  | create | delete => rfl
  | look =>
    rw [end?, glance?]
    cases w.outcome? s <;> rfl

/-- The look that ends a wait is the first one that can. -/
theorem end?_append : ∀ (a b : List Turn) (s : Store),
    w.end? s (a ++ b) = (w.end? s a).or (w.end? (s.course a) b)
  | [], _, _ => by rw [end?, Option.none_or]; rfl
  | t :: a, b, s => by
    rw [List.cons_append, end?_cons, end?_cons, end?_append a b, Option.or_assoc]
    rfl

theorem end?_look {turns : List Turn} (h : w.end? s turns = none) :
    w.end? s (turns ++ [.look]) = w.outcome? (s.course turns) := by
  rw [end?_append, h, Option.none_or, end?_cons, end?, Option.or_none]
  rfl

/-- A wait goes on as long as no look finds an end. -/
theorem end?_eq_none_iff : ∀ {turns : List Turn} {s : Store}, w.end? s turns = none ↔
    ∀ a b, turns = a ++ .look :: b → w.outcome? (s.course a) = none
  | [], s => by simp [end?]
  | t :: turns, s => by
    rw [end?_cons, Option.or_eq_none_iff, end?_eq_none_iff]
    constructor
    · rintro ⟨hnow, hlater⟩ a b hab
      cases a with
      | nil =>
        obtain ⟨rfl, -⟩ := List.cons.inj hab
        exact hnow
      | cons u a =>
        obtain ⟨rfl, rfl⟩ := List.cons.inj hab
        exact hlater a b rfl
    · refine fun h => ⟨?_, fun a b hab => h (t :: a) b (by rw [hab]; rfl)⟩
      cases t with
      | create | delete => rfl
      | look => exact h [] turns rfl

/-! ## Parked -/

/-- Who has looked in vain is at a place that is retained, and nothing from there on is for him. -/
theorem parked {all : List Event} (h : s.Ledger all) (hp : w.outcome? s = none) :
    1 ≤ w.start ∧ all.find? (Event.isFor w.dir w.start) = none := by
  have hstart : 1 ≤ w.start := by
    refine Nat.one_le_iff_ne_zero.2 fun h0 => ?_
    obtain ⟨cause, hcause⟩ := s.eventFrom_of_cleared w.dir (h0 ▸ Nat.zero_le s.clearedUpTo)
    rw [outcome?, hcause] at hp; cases hp
  refine ⟨hstart, ?_⟩
  by_cases hc : w.start + s.capacity ≤ s.index
  · obtain ⟨cause, hcause⟩ := outcome?_of_cleared h hstart hc
    rw [hcause] at hp; cases hp
  · rw [outcome?_of_retained h hstart (Nat.not_le.1 hc)] at hp
    simpa using hp

/-- The next look of somebody who is parked depends on what has been committed since. -/
theorem parked_outcome {all : List Event} (h : s.Ledger all) (hp : w.outcome? s = none)
    (turns : List Turn) :
    (w.start + s.capacity ≤ (s.course turns).index →
      ∃ cause, w.outcome? (s.course turns) = some (.error (.transient cause))) ∧
    ((s.course turns).index < w.start + s.capacity →
      w.outcome? (s.course turns) =
        ((s.mutations turns).find? (Event.isFor w.dir w.start)).map .ok) := by
  obtain ⟨hstart, hnone⟩ := parked h hp
  have hlater := h.course turns
  rw [← s.course_capacity turns]
  refine ⟨fun hc => outcome?_of_cleared hlater hstart hc, fun hr => ?_⟩
  rw [outcome?_of_retained hlater hstart hr, List.find?_append, hnone, Option.none_or]

/-- Somebody waits, and has looked in vain. While nothing has ended the wait, a look ends it with a
refusal when the mutations from its place on, whatever their keys, have filled the history; otherwise
with the first mutation since that it waits for, and goes on when there is none. So as long as all
mutations are elsewhere the wait goes on exactly if every look comes before the history is full. -/
theorem parked_end (capacity : Nat) (hcap : 1 ≤ capacity) (before : List Turn) (id : ι)
    (dir : String) (asked : Option Nat) (turns : List Turn) :
    let s := (Store.empty capacity).course before
    let w := ofNow s id dir asked
    w.outcome? s = none →
    (w.end? s turns = none →
      (w.start + capacity ≤ (s.course turns).index →
        ∃ cause, w.end? s (turns ++ [.look]) = some (.error (.transient cause))) ∧
      ((s.course turns).index < w.start + capacity →
        w.end? s (turns ++ [.look]) =
          ((s.mutations turns).find? (Event.isFor dir w.start)).map .ok)) ∧
    ((∀ e ∈ s.mutations turns, Path.isUnder dir e.key = false) →
      (w.end? s turns = none ↔
        ∀ a b, turns = a ++ .look :: b → (s.course a).index < w.start + capacity)) := by
  intro s w hp
  have h : s.Ledger ((Store.empty capacity).mutations before) := Store.ledger_course capacity before
  have hcapacity : s.capacity = capacity :=
    ((Store.empty capacity).course_capacity before).trans (Nat.max_eq_left hcap)
  have hlook := parked_outcome h hp
  rw [hcapacity] at hlook
  refine ⟨fun hn => ?_, fun helse => ?_⟩
  · rw [end?_look hn]; exact hlook turns
  rw [end?_eq_none_iff]
  refine forall_congr' fun a => forall_congr' fun b => imp_congr_right fun hab => ?_
  constructor
  · intro hn
    refine Nat.not_le.1 fun hc => ?_
    obtain ⟨cause, hcause⟩ := (hlook a).1 hc
    rw [hcause] at hn; cases hn
  · intro hr
    have hnone : (s.mutations a).find? (Event.isFor dir w.start) = none := by
      refine List.find?_eq_none.2 fun e he => ?_
      have hmem : e ∈ s.mutations turns := by
        rw [hab, Store.mutations_append]; exact List.mem_append_left _ he
      simp [Event.isFor, helse e hmem]
    exact ((hlook a).2 hr).trans (by rw [show w.dir = dir from rfl, hnone]; rfl)

/-- Three mutations under another directory end a wait in a store with room for two. -/
theorem ended_from_elsewhere :
    let turns := [.create "/b/1" "", .look, .create "/b/2" "", .look, .create "/b/3" ""]
    let w : Watcher Unit := ofNow (.empty 2) () "/a" none
    (∀ e ∈ (Store.empty 2).mutations (turns ++ [.look]), Path.isUnder "/a" e.key = false) ∧
    w.end? (.empty 2) turns = none ∧
    ∃ cause, w.end? (.empty 2) (turns ++ [.look]) = some (.error (.transient cause)) := by
  intro turns w
  have h := parked_end 2 (by decide) [] () "/a" none turns (by decide)
  have helse : ∀ e ∈ (Store.empty 2).mutations turns, Path.isUnder "/a" e.key = false := by decide
  have hgoes : w.end? (.empty 2) turns = none := by decide
  exact ⟨by decide, hgoes, (h.1 hgoes).1 (by decide)⟩

end Muster.Watcher
