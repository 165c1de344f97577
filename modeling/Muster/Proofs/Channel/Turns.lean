/-
How those who work on a channel take turns. A step is the turn of one task, and leaves the others as
they are; what a turn makes of the channel and of the task is a matter of these two alone, with the
lock and the streams that it needs at nobody's hand.
-/
import Muster.Channel.Traffic

namespace Muster.Channel

variable {ς : Type}

namespace Task

theorem ended_of_hasEnded {k : Task} (h : k.hasEnded = true) : ∃ r, k = .ended r := by
  cases k with
  | ended r => exact ⟨r, rfl⟩
  | _ => cases h

/-! ## What comes of a wait -/

/-- Who can get the lock, and what comes of it. -/
inductive Locked (c : Channel ς) : Task → Channel ς × Task → Prop
  | update (set : Addresses) : Locked c (.updating set)
      (drop (c.replace set.1).2.stale (c.replace set.1).2.pending (c.replace set.1).1)
  | vain {call : Call} : c.reconnectable = [] →
      Locked c (.reconnecting call) (pickAgain call c)
  | reconnect {call : Call} : c.reconnectable ≠ [] →
      Locked c (.reconnecting call) (c, .connecting (some call) c.reconnectable [])

/-- Who can get the stream of a subchannel. One that is to be connected and need not be dialed is
passed over. -/
inductive Streamed (i : Nat) (c : Channel ς) : Task → Channel ς × Task → Prop
  | drop {stale pending : List Nat} : Streamed i c (.dropping i stale pending)
      (drop stale pending (c.update i Subchannel.endShutdown))
  | shut {rest : List Nat} : Streamed i c (.closing i rest)
      (shut rest (c.update i Subchannel.endShutdown))
  | dial {call : Option Call} {waiting busy : List Nat} :
      (c.subchannel? i).map Subchannel.approach = some .dialing →
      Streamed i c (.connecting call waiting busy)
        (c.update i Subchannel.beginConnect, .connecting call (waiting.erase i) (i :: busy))
  | pass {call : Option Call} {waiting busy : List Nat} :
      Streamed i c (.connecting call waiting busy) (join call (waiting.erase i) busy c)
  | dialCall {call : Call} : (c.subchannel? i).map Subchannel.approach = some .dialing →
      Streamed i c (.queued call i) (c.update i Subchannel.beginConnect, .dialing call i)
  | exchange {call : Call} {stream : ς} :
      (c.subchannel? i).map Subchannel.approach = some (.standing stream) →
      Streamed i c (.queued call i) (c, .exchanging call i)
  | refused {call : Call} {f : Fault} :
      (c.subchannel? i).map Subchannel.approach = some (.refused f) →
      Streamed i c (.queued call i) (failed call f c)

/-- Who can wait for a connect to end. -/
inductive Connected (i : Nat) (c : Channel ς) : Except Fault ς → Task → Channel ς × Task → Prop
  | join {r : Except Fault ς} {call : Option Call} {waiting busy : List Nat} : i ∈ busy →
      Connected i c r (.connecting call waiting busy)
        (join call waiting (busy.erase i) (c.update i fun s => s.endConnect r))
  | exchange {stream : ς} {call : Call} : Connected i c (.ok stream) (.dialing call i)
      (c.update i fun s => s.endConnect (.ok stream), .exchanging call i)
  | failed {f : Fault} {call : Call} : Connected i c (.error f) (.dialing call i)
      (failed call f (c.update i fun s => s.endConnect (.error f)))

/-- Who can wait for an exchange to end. -/
inductive Answered (c : Channel ς) : Except Fault Wire.Response → Task → Channel ς × Task → Prop
  | done {response : Wire.Response} {call : Call} {i : Nat} :
      Answered c (.ok response) (.exchanging call i)
        (c.update i fun s => s.endExchange (.ok response), .ended (some response.outcome))
  | failed {f : Fault} {call : Call} {i : Nat} : Answered c (.error f) (.exchanging call i)
      (failed call f (c.update i fun s => s.endExchange (.error f)))

variable {c : Channel ς} {i : Nat} {k : Task} {turn : Channel ς × Task}

theorem locked_of_lock? (h : k.lock? c = some turn) : Locked c k turn := by
  cases k with
  | updating set => cases h; exact .update set
  | reconnecting call =>
    simp only [lock?] at h
    split at h
    · rename_i hnone
      cases h; exact .vain hnone
    · rename_i hsome
      cases h; exact .reconnect hsome
  | dropping | connecting | queued | dialing | exchanging | closing | ended => cases h

theorem streamed_of_stream? (h : k.stream? i c = some turn) : Streamed i c k turn := by
  cases k with
  | dropping j stale pending =>
    obtain ⟨rfl, hk⟩ := Option.ite_none_right_eq_some.1 h
    cases hk; exact .drop
  | closing j rest =>
    obtain ⟨rfl, hk⟩ := Option.ite_none_right_eq_some.1 h
    cases hk; exact .shut
  | connecting call waiting busy =>
    obtain ⟨-, hk⟩ := Option.ite_none_right_eq_some.1 h
    split at hk
    · cases hk; exact .dial ‹_›
    · cases hk; exact .pass
  | queued call j =>
    obtain ⟨rfl, hk⟩ := Option.ite_none_right_eq_some.1 h
    split at hk
    · cases hk; exact .dialCall ‹_›
    · cases hk; exact .exchange ‹_›
    · cases hk; exact .refused ‹_›
    · cases hk
  | updating | reconnecting | dialing | exchanging | ended => cases h

theorem connected_of_connected? {r : Except Fault ς} (h : k.connected? i r c = some turn) :
    Connected i c r k turn := by
  cases k with
  | connecting call waiting busy =>
    obtain ⟨hi, hk⟩ := Option.ite_none_right_eq_some.1 h
    cases hk; exact .join hi
  | dialing call j =>
    obtain ⟨rfl, hk⟩ := Option.ite_none_right_eq_some.1 h
    cases r with
    | ok stream => cases hk; exact .exchange
    | error f => cases hk; exact .failed
  | updating | dropping | reconnecting | queued | exchanging | closing | ended => cases h

theorem answered_of_answered? {r : Except Fault Wire.Response} (h : k.answered? r c = some turn) :
    Answered c r k turn := by
  cases k with
  | exchanging call i =>
    cases r with
    | ok response => cases h; exact .done
    | error f => cases h; exact .failed
  | updating | dropping | connecting | reconnecting | queued | dialing | closing | ended => cases h

end Task

namespace Traffic

/-! ## Turns -/

variable {s s' : Traffic ς} {a : Act ς} {t : Nat}

/-- A task by its number; one that has not come yet waits for nothing. -/
def task (s : Traffic ς) (t : Nat) : Task := s.tasks[t]?.getD (.ended none)

theorem task_of_mem {k : Task} (h : s.tasks[t]? = some k) : s.task t = k := by
  rw [task, h, Option.getD_some]

/-- Whom a step lets go on, from what it waited for. -/
inductive Turn (s : Traffic ς) : Act ς → Nat → Task → Channel ς × Task → Prop
  | update (set : Addresses) :
      Turn s (.update set) s.tasks.length (.ended none) (beginUpdate set s.channel)
  | invoke (r : Wire.Request) :
      Turn s (.invoke r) s.tasks.length (.ended none) (beginInvoke r s.channel)
  | close : Turn s .close s.tasks.length (.ended none) (beginClose s.channel)
  | lock {t : Nat} {old : Task} {turn : Channel ς × Task} : s.tasks[t]? = some old →
      s.unlocked = true → old.lock? s.channel = some turn → Turn s (.lock t) t old turn
  | stream {t i : Nat} {old : Task} {turn : Channel ς × Task} : s.tasks[t]? = some old →
      s.free i = true → old.stream? i s.channel = some turn → Turn s (.stream t i) t old turn
  | connected {t i : Nat} {r : Except Fault ς} {old : Task} {turn : Channel ς × Task} :
      s.tasks[t]? = some old → old.connected? i r s.channel = some turn →
      Turn s (.connected t i r) t old turn
  | answered {t : Nat} {r : Except Fault Wire.Response} {old : Task} {turn : Channel ς × Task} :
      s.tasks[t]? = some old → old.answered? r s.channel = some turn →
      Turn s (.answered t r) t old turn

/-- What a turn leaves. -/
structure Turned (s : Traffic ς) (t : Nat) (turn : Channel ς × Task) (s' : Traffic ς) : Prop where
  channel : s'.channel = turn.1
  task : ∀ u, s'.task u = if u = t then turn.2 else s.task u

theorem turned_enter (turn : Channel ς × Task) : Turned s s.tasks.length turn (s.enter turn) := by
  refine ⟨rfl, fun u => ?_⟩
  show ((s.tasks ++ [turn.2])[u]?).getD _ = _
  rw [List.getElem?_append]
  unfold task
  split
  · rw [if_neg (by omega)]
  · rename_i hu
    by_cases he : u = s.tasks.length
    · rw [if_pos he, he, Nat.sub_self]; rfl
    · rw [if_neg he, List.getElem?_eq_none (by simp; omega), List.getElem?_eq_none (by omega)]

theorem turned_set {old : Task} {turn : Channel ς × Task} (h : s.tasks[t]? = some old) :
    Turned s t turn { channel := turn.1, tasks := s.tasks.set t turn.2 } := by
  refine ⟨rfl, fun u => ?_⟩
  obtain ⟨ht, -⟩ := List.getElem?_eq_some_iff.1 h
  show ((s.tasks.set t turn.2)[u]?).getD _ = _
  rw [List.getElem?_set]
  unfold task
  by_cases hu : t = u
  · rw [if_pos hu, if_pos ht, if_pos hu.symm]; rfl
  · rw [if_neg hu, if_neg (Ne.symm hu)]

/-- A task goes on to what comes of its wait, or it does not wait for that. -/
theorem proceed_cases (turn? : Task → Option (Channel ς × Task))
    (hturn : ∀ {u old turn}, Turn s a u old turn ↔
      u = t ∧ s.tasks[t]? = some old ∧ turn? old = some turn) :
    (s.proceed t turn? = s ∧ ∀ {u old turn}, ¬ Turn s a u old turn) ∨
      ∃ u old turn, Turn s a u old turn ∧ s.task u = old ∧ Turned s u turn (s.proceed t turn?) := by
  unfold proceed
  split
  · rename_i hbind
    refine .inl ⟨rfl, fun h => ?_⟩
    obtain ⟨-, hold, hf⟩ := hturn.1 h
    rw [hold, Option.bind_some, hf] at hbind
    cases hbind
  · rename_i c k hbind
    obtain ⟨old, hold, hf⟩ := Option.bind_eq_some_iff.1 hbind
    exact .inr ⟨t, old, (c, k), hturn.2 ⟨rfl, hold, hf⟩, task_of_mem hold, turned_set hold⟩

/-- A step is somebody's turn, or it is not due and changes nothing. -/
theorem act_cases (s : Traffic ς) (a : Act ς) :
    (s.act a = s ∧ ∀ {t old turn}, ¬ Turn s a t old turn) ∨
      ∃ t old turn, Turn s a t old turn ∧ s.task t = old ∧ Turned s t turn (s.act a) := by
  have newcomer : s.task s.tasks.length = .ended none := by
    rw [task, List.getElem?_eq_none (Nat.le_refl _), Option.getD_none]
  cases a with
  | update set => exact .inr ⟨_, _, _, .update set, newcomer, turned_enter _⟩
  | invoke r => exact .inr ⟨_, _, _, .invoke r, newcomer, turned_enter _⟩
  | close => exact .inr ⟨_, _, _, .close, newcomer, turned_enter _⟩
  | lock t =>
    by_cases hfree : s.unlocked = true
    · rw [act, if_pos hfree]
      refine proceed_cases _ ⟨?_, ?_⟩
      · rintro ⟨⟩
        exact ⟨rfl, ‹_›, ‹_›⟩
      · rintro ⟨rfl, hold, hf⟩
        exact .lock hold hfree hf
    · rw [act, if_neg hfree]
      exact .inl ⟨rfl, fun h => by cases h; exact hfree ‹_›⟩
  | stream t i =>
    by_cases hfree : s.free i = true
    · rw [act, if_pos hfree]
      refine proceed_cases _ ⟨?_, ?_⟩
      · rintro ⟨⟩
        exact ⟨rfl, ‹_›, ‹_›⟩
      · rintro ⟨rfl, hold, hf⟩
        exact .stream hold hfree hf
    · rw [act, if_neg hfree]
      exact .inl ⟨rfl, fun h => by cases h; exact hfree ‹_›⟩
  | connected t i r =>
    refine proceed_cases _ ⟨?_, ?_⟩
    · rintro ⟨⟩
      exact ⟨rfl, ‹_›, ‹_›⟩
    · rintro ⟨rfl, hold, hf⟩
      exact .connected hold hf
  | answered t r =>
    refine proceed_cases _ ⟨?_, ?_⟩
    · rintro ⟨⟩
      exact ⟨rfl, ‹_›, ‹_›⟩
    · rintro ⟨rfl, hold, hf⟩
      exact .answered hold hf

theorem run_concat (s : Traffic ς) (as : List (Act ς)) (a : Act ς) :
    s.run (as ++ [a]) = (s.run as).act a :=
  List.foldl_append

theorem free_iff {i : Nat} : s.free i = true ↔ ∀ t, (s.task t).holds i = false := by
  unfold free task
  rw [Bool.not_eq_true', List.any_eq_false]
  constructor
  · intro h t
    rcases ht : s.tasks[t]? with _ | k
    · rfl
    · simpa using h k (List.mem_of_getElem? ht)
  · intro h k hk
    obtain ⟨t, ht⟩ := List.mem_iff_getElem?.1 hk
    have hholds := h t
    rw [ht] at hholds
    simpa using hholds

/-- Everybody who has worked on the channel has come to an end. -/
def AtRest (s : Traffic ς) : Prop := ∀ k ∈ s.tasks, k.hasEnded = true

theorem AtRest.task (h : s.AtRest) (t : Nat) : ∃ r, s.task t = .ended r := by
  unfold Traffic.task
  rcases ht : s.tasks[t]? with _ | k
  · exact ⟨none, rfl⟩
  · exact Task.ended_of_hasEnded (h k (List.mem_of_getElem? ht))

end Traffic

end Muster.Channel
