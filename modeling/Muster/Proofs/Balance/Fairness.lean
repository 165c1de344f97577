/-
Rotation is fair. However callers come between one another, the picks bring the entries in turn from
where the rotation starts; so among picks in a row no position is met more than once more often than
another. Main statement: `picks_in_turn`.
-/
import Mathlib.Data.Int.CardIntervalMod
import Muster.Balance.Turnstile

namespace Muster.RoundRobin

variable {α : Type} {entries : List α}

/-! ## An endless rotation -/

/-- What the endless rotation has in a place: an entry with its position, unless there are none. -/
def turn? (entries : List α) (place : Nat) : Option (Nat × α) :=
  entries[place % entries.length]?.map fun a => (place % entries.length, a)

theorem turn?_nil (place : Nat) : turn? ([] : List α) place = none := rfl

theorem turn?_eq_some_iff {place position : Nat} {a : α} :
    turn? entries place = some (position, a) ↔
      entries[place % entries.length]? = some a ∧ place % entries.length = position := by
  unfold turn?
  cases entries[place % entries.length]? with
  | none => simp
  | some b => simp [and_comm]

theorem exists_turn? (h : entries ≠ []) (place : Nat) :
    ∃ a, entries[place % entries.length]? = some a ∧
      turn? entries place = some (place % entries.length, a) := by
  have hlt : place % entries.length < entries.length := Nat.mod_lt _ (List.length_pos_iff.2 h)
  refine ⟨entries[place % entries.length], List.getElem?_eq_getElem hlt, ?_⟩
  rw [turn?_eq_some_iff]
  exact ⟨List.getElem?_eq_getElem hlt, rfl⟩

/-- What cannot be shared out evenly rounds up to one more. -/
theorem div_rounded_up {n k : Nat} (h : 0 < n % k) (hk : 0 < k) : (n + k - 1) / k = n / k + 1 := by
  have hpart := Nat.div_add_mod n k
  have hlast : n % k < k := Nat.mod_lt _ hk
  have hsum : n + k - 1 = (n % k - 1) + k * (n / k + 1) := by
    rw [Nat.mul_succ]
    omega
  rw [hsum, Nat.add_mul_div_left _ _ hk, Nat.div_eq_of_lt (by omega), Nat.zero_add]

/-- Of places in a row, as many as can be shared out evenly fall on each position, and at most one
more. -/
theorem count_places {k position : Nat} (h : position < k) (start n : Nat) :
    n.count (fun j => (start + j) % k = position) = n / k ∨
      n.count (fun j => (start + j) % k = position) = (n + k - 1) / k := by
  have hk : 0 < k := by omega
  -- the places on a position are those that leave one and the same remainder
  have hclass : ∀ j, (start + j) % k = position ↔ j ≡ position + (k - start % k) [MOD k] := by
    intro j
    have hstart : start % k < k := Nat.mod_lt _ hk
    have hpart := Nat.div_add_mod start k
    have hsum : position + (k - start % k) + start = position + k * (start / k + 1) := by
      rw [Nat.mul_succ]
      omega
    constructor
    · intro hj
      apply Nat.ModEq.add_right_cancel' start
      rw [hsum, Nat.ModEq, Nat.add_mul_mod_self_left, Nat.mod_eq_of_lt h, Nat.add_comm, hj]
    · intro hj
      have hboth := hj.add_right start
      rw [hsum, Nat.ModEq, Nat.add_mul_mod_self_left, Nat.mod_eq_of_lt h, Nat.add_comm] at hboth
      exact hboth
  simp only [hclass]
  rw [Nat.count_modEq_card _ hk]
  split
  · rename_i hlt
    rw [div_rounded_up (Nat.lt_of_le_of_lt (Nat.zero_le _) hlt) hk]
    exact .inr rfl
  · exact .inl rfl

/-! ## What each step keeps -/

namespace Stage

/-- What the caller that has the lock has read. -/
def found? : Stage α → Option (Nat × α)
  | entered => none
  | read position a | moved position a => some (position, a)

/-- By how much the cursor is ahead of the picks that are over. -/
def ahead : Stage α → Nat
  | moved .. => 1
  | _ => 0

end Stage

namespace Turnstile

variable {offset : Nat} {t : Turnstile α}

/-- The picks that are over have had the endless rotation in turn, and the caller that has the lock
has what comes next. Without entries nobody waits. -/
structure InTurn (entries : List α) (offset : Nat) (t : Turnstile α) : Prop where
  rotates : t.rotation.entries = entries
  vacant : entries = [] → t.waiting = [] ∧ t.inside = none
  cursor : entries ≠ [] → t.rotation.cursor =
    (offset + t.picks.length + t.inside.elim 0 (·.2.ahead)) % entries.length
  inside : ∀ caller stage found, t.inside = some (caller, stage) → stage.found? = some found →
    turn? entries (offset + t.picks.length) = some found
  picks : t.picks.map (·.found) = (List.range t.picks.length).map fun i => turn? entries (offset + i)

/-- Nobody has the lock of a rotation without entries. -/
theorem InTurn.nonempty (h : InTurn entries offset t) {holder : Nat × Stage α}
    (hinside : t.inside = some holder) : entries ≠ [] := by
  intro hempty
  rw [(h.vacant hempty).2] at hinside
  cases hinside

theorem inTurn_opened (entries : List α) (offset : Nat) :
    InTurn entries offset (opened entries offset) := by
  refine ⟨rfl, fun _ => ⟨rfl, rfl⟩, ?_, ?_, rfl⟩
  · intro h
    show (if entries.isEmpty then 0 else offset % entries.length) = _
    rw [List.isEmpty_eq_false_iff.2 h]
    rfl
  · rintro _ _ _ ⟨⟩

/-- One more pick is written down, with what was next. -/
theorem found_finish (h : InTurn entries offset t) {caller : Nat} {found : Option (Nat × α)}
    (hfound : found = turn? entries (offset + t.picks.length)) :
    (t.finish caller found).picks.map (·.found) =
      (List.range (t.finish caller found).picks.length).map fun i => turn? entries (offset + i) := by
  simp only [finish, List.map_append, List.map_singleton, List.length_append, List.length_singleton,
    List.range_succ, h.picks, hfound]

theorem InTurn.call (h : InTurn entries offset t) (caller : Nat) :
    InTurn entries offset (t.call caller) := by
  unfold Turnstile.call
  split
  · rename_i hempty
    rw [h.rotates, List.isEmpty_iff] at hempty
    obtain ⟨hwaiting, hinside⟩ := h.vacant hempty
    refine ⟨h.rotates, fun _ => ⟨hwaiting, hinside⟩, fun hne => absurd hempty hne, ?_, ?_⟩
    · intro _ _ _ hsome
      exact absurd hsome (by simp [finish, hinside])
    · apply found_finish h
      rw [hempty, turn?_nil]
  · rename_i hnonempty
    rw [h.rotates] at hnonempty
    refine ⟨h.rotates, ?_, h.cursor, h.inside, h.picks⟩
    intro hempty
    exact absurd hempty (by simpa using hnonempty)

theorem InTurn.enter (h : InTurn entries offset t) (caller : Nat) :
    InTurn entries offset (t.enter caller) := by
  unfold Turnstile.enter
  split
  · rename_i hdue
    simp only [Bool.and_eq_true, List.contains_iff_mem, Option.isNone_iff_eq_none] at hdue
    obtain ⟨hmem, hfree⟩ := hdue
    refine ⟨h.rotates, ?_, ?_, ?_, h.picks⟩
    · intro hempty
      rw [(h.vacant hempty).1] at hmem
      cases hmem
    · intro hne
      have hcursor := h.cursor hne
      rw [hfree] at hcursor
      exact hcursor
    · rintro _ _ _ ⟨⟩ ⟨⟩
  · exact h

theorem InTurn.read (h : InTurn entries offset t) : InTurn entries offset t.read := by
  unfold Turnstile.read
  split
  · rename_i caller a hinside hread
    have hne := h.nonempty hinside
    have hcursor := h.cursor hne
    rw [hinside] at hcursor
    refine ⟨h.rotates, fun hempty => absurd hempty hne, fun _ => hcursor, ?_, h.picks⟩
    rintro _ _ _ ⟨⟩ ⟨⟩
    rw [turn?_eq_some_iff]
    rw [h.rotates, hcursor] at hread
    exact ⟨hread, hcursor.symm⟩
  · exact h

theorem InTurn.move (h : InTurn entries offset t) : InTurn entries offset t.move := by
  unfold Turnstile.move
  split
  · rename_i caller position a hinside
    have hne := h.nonempty hinside
    have hcursor := h.cursor hne
    rw [hinside] at hcursor
    refine ⟨h.rotates, fun hempty => absurd hempty hne, ?_, ?_, h.picks⟩
    · intro _
      show (t.rotation.cursor + 1) % t.rotation.entries.length = _
      rw [h.rotates, hcursor, Nat.mod_add_mod]
      rfl
    · rintro _ _ _ ⟨⟩ ⟨⟩
      exact h.inside _ _ _ hinside rfl
  · exact h

theorem InTurn.leave (h : InTurn entries offset t) : InTurn entries offset t.leave := by
  unfold Turnstile.leave
  split
  · rename_i caller position a hinside
    refine ⟨h.rotates, fun hempty => ⟨(h.vacant hempty).1, rfl⟩, ?_, ?_, ?_⟩
    · intro hne
      have hcursor := h.cursor hne
      rw [hinside] at hcursor
      simp only [finish, List.length_append, List.length_singleton, ← Nat.add_assoc]
      exact hcursor
    · rintro _ _ _ ⟨⟩
    · exact found_finish h (h.inside _ _ _ hinside rfl).symm
  · exact h

theorem InTurn.step (h : InTurn entries offset t) (s : Step) : InTurn entries offset (t.step s) := by
  cases s with
  | call caller => exact h.call caller
  | enter caller => exact h.enter caller
  | read => exact h.read
  | move => exact h.move
  | leave => exact h.leave

theorem InTurn.run (h : InTurn entries offset t) (steps : List Step) :
    InTurn entries offset (t.run steps) := by
  induction steps generalizing t with
  | nil => exact h
  | cons s steps ih => exact ih (h.step s)

/-! ## What has been picked -/

/-- Each pick has had what its place has in the endless rotation. -/
theorem InTurn.found (h : InTurn entries offset t) {i : Nat} (hi : i < t.picks.length) :
    t.picks[i].found = turn? entries (offset + i) := by
  have hpick := congrArg (fun l => l[i]?) h.picks
  simpa [List.getElem?_map, List.getElem?_eq_getElem, hi] using hpick

theorem InTurn.position (h : InTurn entries offset t) (hne : entries ≠ []) {i : Nat}
    (hi : i < t.picks.length) : t.picks[i].position = some ((offset + i) % entries.length) := by
  obtain ⟨a, -, hturn⟩ := exists_turn? hne (offset + i)
  rw [Pick.position, h.found hi, hturn]
  rfl

/-- How often picks in a row come to a position is how often their places fall on it. -/
theorem InTurn.count_window (h : InTurn entries offset t) (hne : entries ≠ []) (position start n : Nat)
    (hn : start + n ≤ t.picks.length) :
    ((t.picks.drop start).take n).countP (·.position = some position) =
      n.count (fun j => (offset + start + j) % entries.length = position) := by
  induction n with
  | zero => simp
  | succ n ih =>
    have hlt : n < (t.picks.drop start).length := by
      rw [List.length_drop]
      omega
    have hlast := h.position hne (i := start + n) (by omega)
    rw [List.take_succ_eq_append_getElem hlt, List.countP_append, ih (by omega), Nat.count_succ,
      List.countP_singleton, List.getElem_drop, hlast, ← Nat.add_assoc]
    simp

/-- Whoever has the lock comes out with what is next. -/
theorem InTurn.goThrough (h : InTurn entries offset t) {caller : Nat} {stage : Stage α}
    (hinside : t.inside = some (caller, stage)) :
    (t.run goThrough).inside = none ∧
      (t.run goThrough).picks = t.picks ++ [⟨caller, turn? entries (offset + t.picks.length)⟩] := by
  have hne := h.nonempty hinside
  obtain ⟨a, ha, hturn⟩ := exists_turn? hne (offset + t.picks.length)
  have hcursor := h.cursor hne
  rw [hinside] at hcursor
  show t.read.move.leave.inside = none ∧ t.read.move.leave.picks = _
  cases stage with
  | entered =>
    have hread : t.read =
        { t with inside := some (caller, .read ((offset + t.picks.length) % entries.length) a) } := by
      have hposition : t.rotation.cursor = (offset + t.picks.length) % entries.length := hcursor
      have hentry : t.rotation.entries[t.rotation.cursor]? = some a := by
        rw [h.rotates, hposition]
        exact ha
      simp only [Turnstile.read, hinside, hentry, ← hposition]
    rw [hturn, hread]
    exact ⟨rfl, rfl⟩
  | read position b =>
    rw [h.inside _ _ _ hinside rfl]
    simp [Turnstile.read, Turnstile.move, Turnstile.leave, finish, hinside]
  | moved position b =>
    rw [h.inside _ _ _ hinside rfl]
    simp [Turnstile.read, Turnstile.move, Turnstile.leave, finish, hinside]

/-- A caller that nobody comes between has the next entry of the rotation. -/
theorem lone_pick (hwaiting : t.waiting = []) (hinside : t.inside = none)
    (hcursor : t.rotation.cursor < t.rotation.entries.length) (caller : Nat) :
    t.run (.call caller :: .enter caller :: Turnstile.goThrough) =
      { t with
        rotation := t.rotation.next.2
        picks := t.picks ++ [⟨caller, t.rotation.next.1.map fun a => (t.rotation.cursor, a)⟩] } := by
  have hread := List.getElem?_eq_getElem hcursor
  have hne : t.rotation.entries ≠ [] := List.ne_nil_of_length_pos (by omega)
  show ((t.call caller).enter caller).read.move.leave = _
  simp [call, enter, Turnstile.read, Turnstile.move, leave, finish, RoundRobin.next, hread, hne,
    hwaiting, hinside]

end Turnstile

/-! ## Fairness -/

open Turnstile in
/-- Rotation is fair, however the callers come between one another. Without entries every pick is over
at once and has found nothing. Otherwise the cursor stays on an entry, and the picks have brought the
entries in turn from the offset on; so picks in a row have come to each position as often as they can be
shared out evenly, or once more. Whoever waits gets the lock as soon as it is free, and whoever has it
leaves with the entry that is next. -/
theorem picks_in_turn (entries : List α) (offset : Nat) (steps : List Step) :
    let t := (opened entries offset).run steps
    (entries = [] → (∀ p ∈ t.picks, p.found = none) ∧
      ∀ caller, t.step (.call caller) = { t with picks := t.picks ++ [⟨caller, none⟩] }) ∧
    (entries ≠ [] →
      t.rotation.cursor < entries.length ∧
      (∀ (i : Nat) (hi : i < t.picks.length), ∃ a,
        entries[(offset + i) % entries.length]? = some a ∧
          t.picks[i].found = some ((offset + i) % entries.length, a)) ∧
      (∀ position < entries.length, ∀ start n, start + n ≤ t.picks.length →
        ((t.picks.drop start).take n).countP (·.position = some position) = n / entries.length ∨
          ((t.picks.drop start).take n).countP (·.position = some position) =
            (n + entries.length - 1) / entries.length) ∧
      (t.inside = none → ∀ caller ∈ t.waiting,
        (t.step (.enter caller)).inside = some (caller, .entered)) ∧
      ∀ caller stage, t.inside = some (caller, stage) → ∃ a,
        entries[(offset + t.picks.length) % entries.length]? = some a ∧
        (t.run goThrough).inside = none ∧
        (t.run goThrough).picks =
          t.picks ++ [⟨caller, some ((offset + t.picks.length) % entries.length, a)⟩]) := by
  intro t
  have h : InTurn entries offset t := (inTurn_opened entries offset).run steps
  constructor
  · intro hempty
    constructor
    · intro p hp
      obtain ⟨i, hi, rfl⟩ := List.getElem_of_mem hp
      rw [h.found hi, hempty, turn?_nil]
    · intro caller
      simp only [Turnstile.step, Turnstile.call, h.rotates, hempty, List.isEmpty_nil, if_true, finish]
  · intro hne
    refine ⟨?_, ?_, ?_, ?_, ?_⟩
    · rw [h.cursor hne]
      exact Nat.mod_lt _ (List.length_pos_iff.2 hne)
    · intro i hi
      obtain ⟨a, ha, hturn⟩ := exists_turn? hne (offset + i)
      exact ⟨a, ha, (h.found hi).trans hturn⟩
    · intro position hposition start n hn
      rw [h.count_window hne position start n hn]
      exact count_places hposition (offset + start) n
    · intro hfree caller hcaller
      simp [Turnstile.step, Turnstile.enter, hfree, hcaller]
    · intro caller stage hinside
      obtain ⟨a, ha, hturn⟩ := exists_turn? hne (offset + t.picks.length)
      obtain ⟨hleft, hpicks⟩ := h.goThrough hinside
      rw [hturn] at hpicks
      exact ⟨a, ha, hleft, hpicks⟩

/-- Three callers come between one another; the rotation starts at the last of three entries. -/
theorem picks_in_turn_three :
    let steps := [.call 0, .call 1, .enter 1, .call 2, .read, .move, .leave, .enter 0, .read,
      .enter 2, .move, .leave, .enter 2, .read, .move, .leave]
    let t := (Turnstile.opened ["a", "b", "c"] 5).run steps
    t.picks.length = 3 ∧ t.picks.map (·.caller) = [1, 0, 2] ∧
      ∀ position < 3, (t.picks.drop 0 |>.take 2).countP (·.position = some position) = 0 ∨
        (t.picks.drop 0 |>.take 2).countP (·.position = some position) = 1 := by
  refine ⟨rfl, rfl, ?_⟩
  intro position hposition
  exact ((picks_in_turn ["a", "b", "c"] 5 _).2 (by decide)).2.2.1 position hposition 0 2 (by decide)

end Muster.RoundRobin
