/-
Watching against the ledger. Somebody looks into a store for the next event of a directory while
others write to it. A look is refused exactly when the place it starts from has left the history, and
else it sees what the whole ledger holds: so whoever goes on behind each event receives all of them,
until a look is refused. Main statement: `watch_lossless`.
-/
import Muster.Proofs.History
import Muster.Proofs.Store.Ledger
import Muster.Store.Watcher

namespace Muster

/-! ## Writes and looks -/

/-- What can happen to a store that is watched: somebody writes, or who waits looks. -/
inductive Turn where
  | create (key value : String)
  | delete (key : String)
  | look
deriving DecidableEq, Repr

namespace Store

/-- The event of a mutation, if it was not refused. -/
def committed (action : Action) (key : String) : Except Fault Store → List Event
  | .ok s => [⟨action, key, s.index⟩]
  | .error _ => []

/-- The store after a mutation; one that is refused changes nothing. -/
def mutated (s : Store) : Except Fault Store → Store
  | .ok t => t
  | .error _ => s

def turn (s : Store) : Turn → Store
  | .create key value => s.mutated (s.create key value)
  | .delete key => s.mutated (s.delete key)
  | .look => s

def commits (s : Store) : Turn → List Event
  | .create key value => committed .create key (s.create key value)
  | .delete key => committed .delete key (s.delete key)
  | .look => []

/-- The store after several turns. -/
def course (s : Store) (turns : List Turn) : Store := turns.foldl turn s

/-- The mutations of several turns, in their order. -/
def mutations (s : Store) (turns : List Turn) : List Event := Muster.history turn commits s turns

variable {all : List Event} {s : Store}

theorem mutations_append (s : Store) (a b : List Turn) :
    s.mutations (a ++ b) = s.mutations a ++ (s.course a).mutations b := Muster.history_append s a b

/-- A turn records one mutation, or changes nothing. -/
theorem turn_cases (s : Store) (t : Turn) :
    (s.turn t = s ∧ s.commits t = []) ∨
    ∃ action key entries, action.isMutation = true ∧
      s.turn t = { s.record action key with entries } ∧
      s.commits t = [⟨action, key, s.index + 1⟩] := by
  cases t with
  | look => exact .inl ⟨rfl, rfl⟩
  | create key value =>
    simp only [turn, commits]
    rcases s.create_cases key value with ⟨entries, h⟩ | h <;> rw [h]
    · exact .inr ⟨.create, key, entries, rfl, rfl, rfl⟩
    · exact .inl ⟨rfl, rfl⟩
  | delete key =>
    simp only [turn, commits]
    rcases s.delete_cases key with ⟨entries, h⟩ | h <;> rw [h]
    · exact .inr ⟨.delete, key, entries, rfl, rfl, rfl⟩
    · exact .inl ⟨rfl, rfl⟩

/-- What is committed goes into the ledger. -/
theorem Ledger.turn (h : Ledger all s) (t : Turn) : Ledger (all ++ s.commits t) (s.turn t) := by
  rcases s.turn_cases t with ⟨hs, hc⟩ | ⟨action, key, entries, ha, hs, hc⟩
  · rw [hs, hc, List.append_nil]; exact h
  · rw [hs, hc]; exact (h.record ha key).withEntries entries

theorem Ledger.course (h : Ledger all s) (turns : List Turn) :
    Ledger (all ++ s.mutations turns) (s.course turns) :=
  Muster.run_invariant (P := fun s log => Ledger log s) (fun _ t _ h => h.turn t) turns s all h

theorem ledger_course (capacity : Nat) (turns : List Turn) :
    Ledger ((empty capacity).mutations turns) ((empty capacity).course turns) :=
  (ledger_empty capacity).course turns

theorem turn_capacity (s : Store) (t : Turn) : (s.turn t).capacity = s.capacity := by
  rcases s.turn_cases t with ⟨hs, -⟩ | ⟨_, _, _, -, hs, -⟩ <;> rw [hs]
  rfl

theorem index_le_turn (s : Store) (t : Turn) : s.index ≤ (s.turn t).index := by
  rcases s.turn_cases t with ⟨hs, -⟩ | ⟨_, _, _, -, hs, -⟩
  · exact Nat.le_of_eq (congrArg Store.index hs).symm
  · exact Nat.le_trans (Nat.le_succ _) (Nat.le_of_eq (congrArg Store.index hs).symm)

theorem index_of_commits (s : Store) {t : Turn} {e : Event} (he : e ∈ s.commits t) :
    e.index = s.index + 1 := by
  rcases s.turn_cases t with ⟨-, hc⟩ | ⟨_, _, _, -, -, hc⟩ <;> rw [hc] at he
  · cases he
  · rw [List.mem_singleton.1 he]

theorem course_capacity : ∀ (turns : List Turn) (s : Store), (s.course turns).capacity = s.capacity
  | [], _ => rfl
  | t :: turns, s => (course_capacity turns (s.turn t)).trans (s.turn_capacity t)

end Store

/-! ## One look -/

/-- The events that a watcher of a directory looks for from an index on. -/
def Event.isFor (dir : String) (start : Nat) (e : Event) : Bool :=
  start ≤ e.index && Path.isUnder dir e.key

namespace Store

variable {all : List Event} {s : Store}

/-- The place where a watcher starts has left the history when the mutations from there on fill it. -/
theorem Ledger.start_le_cleared (h : Ledger all s) {start : Nat} (hstart : 1 ≤ start) :
    start ≤ s.clearedUpTo ↔ start + s.capacity ≤ s.index := by
  have := h.cleared
  have := h.count
  omega

/-- A look that starts in what has left the history is refused. -/
theorem eventFrom_of_cleared (s : Store) (dir : String) {start : Nat} (h : start ≤ s.clearedUpTo) :
    ∃ cause, s.eventFrom dir start = .error (.transient cause) := by
  unfold Store.eventFrom
  rw [if_pos h]
  exact ⟨_, rfl⟩

/-- The events of a ledger stand in the order of their numbers. -/
theorem Ledger.increasing (h : Ledger all s) : all.Pairwise fun d e => d.index < e.index := by
  rw [← List.pairwise_map, h.numbers]
  exact List.pairwise_lt_range'

/-- What a search of the ledger finds has the least number of all that is searched for. -/
theorem Ledger.find?_eq_some_iff (h : Ledger all s) {p : Event → Bool} {e : Event} :
    all.find? p = some e ↔ e ∈ all ∧ p e = true ∧ ∀ d ∈ all, p d = true → e.index ≤ d.index := by
  rw [List.find?_eq_some_iff_append]
  constructor
  · rintro ⟨hp, before, after, rfl, hbefore⟩
    refine ⟨List.mem_append_right _ (List.mem_cons_self ..), hp, fun d hd hd' => ?_⟩
    rcases List.mem_append.1 hd with hd | hd
    · have := hbefore d hd
      rw [hd'] at this; cases this
    rcases List.mem_cons.1 hd with rfl | hd
    · exact Nat.le_refl _
    · exact Nat.le_of_lt (List.rel_of_pairwise_cons (List.pairwise_append.1 h.increasing).2.1 hd)
  · rintro ⟨hmem, hp, hleast⟩
    obtain ⟨before, after, rfl⟩ := List.append_of_mem hmem
    refine ⟨hp, before, after, rfl, fun d hd => ?_⟩
    have hlt : d.index < e.index :=
      (List.pairwise_append.1 h.increasing).2.2 d hd e (List.mem_cons_self ..)
    cases hd' : p d with
    | false => rfl
    | true => have := hleast d (List.mem_append_left _ hd) hd'; omega

/-- Behind the first event that is searched for the search goes on with the next. -/
theorem Ledger.filter_isFor (h : Ledger all s) {dir : String} {start : Nat} {e : Event}
    (he : all.find? (Event.isFor dir start) = some e) :
    all.filter (Event.isFor dir start) = e :: all.filter (Event.isFor dir (e.index + 1)) := by
  obtain ⟨hp, before, after, rfl, hbefore⟩ := List.find?_eq_some_iff_append.1 he
  have hinc := List.pairwise_append.1 h.increasing
  have hnone : before.filter (Event.isFor dir start) = [] :=
    List.filter_eq_nil_iff.2 fun d hd => by simpa using hbefore d hd
  have hpast : before.filter (Event.isFor dir (e.index + 1)) = [] := by
    refine List.filter_eq_nil_iff.2 fun d hd => ?_
    have : d.index < e.index := hinc.2.2 d hd e (List.mem_cons_self ..)
    simp only [Event.isFor, Bool.and_eq_true, decide_eq_true_eq, not_and]
    omega
  have hrest : after.filter (Event.isFor dir start) =
      after.filter (Event.isFor dir (e.index + 1)) := by
    refine List.filter_congr fun d hd => ?_
    have hlt : e.index < d.index := List.rel_of_pairwise_cons hinc.2.1 hd
    have hle : start ≤ e.index := by
      simp only [Event.isFor, Bool.and_eq_true, decide_eq_true_eq] at hp; exact hp.1
    simp only [Event.isFor, show start ≤ d.index by omega, show e.index + 1 ≤ d.index by omega]
  have hself : ¬Event.isFor dir (e.index + 1) e = true := by
    simp only [Event.isFor, Bool.and_eq_true, decide_eq_true_eq]
    omega
  rw [List.filter_append, List.filter_append, hnone, hpast, List.filter_cons_of_pos hp,
    List.filter_cons_of_neg hself, hrest]
  rfl

end Store

namespace Watcher

variable {ι : Type} {all : List Event} {s : Store} {w : Watcher ι}

/-- A look whose place has left the history is refused. -/
theorem outcome?_of_cleared (h : s.Ledger all) (hstart : 1 ≤ w.start)
    (hc : w.start + s.capacity ≤ s.index) : ∃ cause, w.outcome? s = some (.error (.transient cause)) := by
  obtain ⟨cause, hcause⟩ := s.eventFrom_of_cleared w.dir ((h.start_le_cleared hstart).2 hc)
  exact ⟨cause, by rw [outcome?, hcause]⟩

/-- Any other look sees what the whole ledger holds. -/
theorem outcome?_of_retained (h : s.Ledger all) (hstart : 1 ≤ w.start)
    (hr : s.index < w.start + s.capacity) :
    w.outcome? s = (all.find? (Event.isFor w.dir w.start)).map .ok := by
  have hkept : s.clearedUpTo < w.start := by
    have := h.start_le_cleared hstart
    omega
  have hfound : s.eventFrom w.dir w.start = .ok (all.find? (Event.isFor w.dir w.start)) :=
    h.eventFrom w.dir hkept
  rw [outcome?, hfound]
  cases all.find? (Event.isFor w.dir w.start) <;> rfl

end Watcher

/-! ## Following -/

/-- Somebody who waits for the events of a directory one after another, each time from behind the
last. -/
structure Follower where
  store : Store
  wait : Watcher Unit
  received : List Event := []
  /-- A look has been refused, which ends the following. -/
  refused : Bool := false

namespace Follower

/-- Somebody who begins to follow a directory from an index on. -/
def ofStart (store : Store) (dir : String) (start : Nat) : Follower :=
  { store, wait := { id := (), dir, start } }

/-- The follower after a look. -/
def look (f : Follower) : Follower :=
  if f.refused then f
  else
    match f.wait.outcome? f.store with
    | none => f
    | some (.error _) => { f with refused := true }
    | some (.ok e) =>
      { f with received := f.received ++ [e], wait := { f.wait with start := e.index + 1 } }

def turn (f : Follower) (t : Turn) : Follower :=
  match t with
  | .look => f.look
  | t => { f with store := f.store.turn t }

/-- The follower after several turns. -/
def run (f : Follower) (turns : List Turn) : Follower := turns.foldl turn f

/-- What a follower has received, and what it has still to look for, are all the events that it
wanted from its beginning on. -/
structure Follows (capacity : Nat) (dir : String) (start : Nat) (f : Follower) (all : List Event) :
    Prop where
  ledger : f.store.Ledger all
  capacity_eq : f.store.capacity = capacity
  dir_eq : f.wait.dir = dir
  forward : start ≤ f.wait.start
  near : f.wait.start = start ∨ f.wait.start ≤ f.store.index + 1
  complete : f.received ++ all.filter (Event.isFor dir f.wait.start) =
    all.filter (Event.isFor dir start)

variable {capacity : Nat} {dir : String} {start : Nat} {f : Follower} {all : List Event}

/-- What is committed is wanted from the beginning on exactly when it is still wanted. -/
theorem Follows.write (h : Follows capacity dir start f all) (t : Turn) :
    Follows capacity dir start { f with store := f.store.turn t } (all ++ f.store.commits t) := by
  have hsame : (f.store.commits t).filter (Event.isFor dir f.wait.start) =
      (f.store.commits t).filter (Event.isFor dir start) := by
    refine List.filter_congr fun e he => ?_
    have hindex := f.store.index_of_commits he
    have hforward := h.forward
    have hiff : f.wait.start ≤ e.index ↔ start ≤ e.index := by
      rcases h.near with hn | hn <;> omega
    simp only [Event.isFor, hiff]
  refine ⟨h.ledger.turn t, (f.store.turn_capacity t).trans h.capacity_eq, h.dir_eq, h.forward, ?_, ?_⟩
  · exact h.near.imp_right fun hn => Nat.le_trans hn (Nat.succ_le_succ (f.store.index_le_turn t))
  · rw [List.filter_append, List.filter_append, ← h.complete, hsame, List.append_assoc]

/-- A look takes the next event, or leaves everything to be received later. -/
theorem Follows.look (hstart : 1 ≤ start) (h : Follows capacity dir start f all) :
    Follows capacity dir start f.look all := by
  unfold Follower.look
  split
  · exact h
  split
  · exact h
  · exact { h with }
  rename_i e he
  have hforward := h.forward
  have hbegin : 1 ≤ f.wait.start := Nat.le_trans hstart hforward
  have hr : f.store.index < f.wait.start + f.store.capacity := by
    refine Nat.not_le.1 fun hc => ?_
    obtain ⟨cause, hcause⟩ := Watcher.outcome?_of_cleared h.ledger hbegin hc
    rw [hcause] at he; cases he
  have hfound : all.find? (Event.isFor dir f.wait.start) = some e := by
    rw [Watcher.outcome?_of_retained h.ledger hbegin hr, h.dir_eq] at he
    simpa using he
  have hle : f.wait.start ≤ e.index := by
    have := List.find?_some hfound
    simp only [Event.isFor, Bool.and_eq_true, decide_eq_true_eq] at this
    exact this.1
  refine ⟨h.ledger, h.capacity_eq, h.dir_eq, ?_, .inr ?_, ?_⟩
  · exact Nat.le_succ_of_le (Nat.le_trans hforward hle)
  · exact Nat.succ_le_succ (h.ledger.index_le (List.mem_of_find?_eq_some hfound)).2
  · rw [← h.complete, h.ledger.filter_isFor hfound, List.append_assoc]; rfl

theorem Follows.turn (hstart : 1 ≤ start) (h : Follows capacity dir start f all) (t : Turn) :
    Follows capacity dir start (f.turn t) (all ++ f.store.commits t) := by
  cases t with
  | create | delete => exact h.write _
  | look => rw [Store.commits, List.append_nil]; exact h.look hstart

/-- A look leaves the store as it is. -/
theorem turn_store (f : Follower) (t : Turn) : (f.turn t).store = f.store.turn t := by
  cases t with
  | create | delete => rfl
  | look =>
    show f.look.store = f.store
    unfold Follower.look
    split
    · rfl
    split <;> rfl

theorem Follows.run (hstart : 1 ≤ start) : ∀ (turns : List Turn) {f : Follower} {all : List Event},
    Follows capacity dir start f all →
    Follows capacity dir start (f.run turns) (all ++ f.store.mutations turns)
  | [], _, _, h => by rw [Store.mutations, Muster.history, List.append_nil]; exact h
  | t :: turns, f, all, h => by
    have := (h.turn hstart t).run hstart turns
    rw [f.turn_store, List.append_assoc] at this
    exact this

/-- One look, and following. A look from an index on is refused exactly when the capacity of the
store has been filled from there on; else it sees the earliest of all mutations that is searched for,
and nothing exactly when there is none. And whoever follows a directory from an index on has at any
time received the events it wants of all mutations, in order and each once, but for those from its
present place on; so when its look sees nothing it has received them all. -/
theorem watch_lossless (capacity : Nat) (hcap : 1 ≤ capacity) (dir : String) (start : Nat)
    (hstart : 1 ≤ start) (turns : List Turn) :
    let f := (ofStart (.empty capacity) dir start).run turns
    let all := (Store.empty capacity).mutations turns
    let seen := Watcher.outcome? f.store { id := (), dir, start }
    ((∃ cause, seen = some (.error (.transient cause))) ↔ start + capacity ≤ f.store.index) ∧
    (f.store.index < start + capacity →
      (∀ e, seen = some (.ok e) ↔ e ∈ all ∧ e.isFor dir start = true ∧
        ∀ d ∈ all, d.isFor dir start = true → e.index ≤ d.index) ∧
      (seen = none ↔ ∀ e ∈ all, e.isFor dir start = false)) ∧
    f.received ++ all.filter (Event.isFor dir f.wait.start) = all.filter (Event.isFor dir start) ∧
    (f.wait.outcome? f.store = none → f.received = all.filter (Event.isFor dir start)) := by
  intro f all seen
  have h : Follows capacity dir start f all := by
    have hbegin : Follows capacity dir start (ofStart (.empty capacity) dir start) [] :=
      ⟨Store.ledger_empty capacity, Nat.max_eq_left hcap, rfl, Nat.le_refl _, .inl rfl, rfl⟩
    exact hbegin.run hstart turns
  have hcleared : start + capacity ≤ f.store.index →
      ∃ cause, seen = some (.error (.transient cause)) := fun hc =>
    Watcher.outcome?_of_cleared (w := { id := (), dir, start }) h.ledger hstart
      (by rw [h.capacity_eq]; exact hc)
  have hretained : f.store.index < start + capacity →
      seen = (all.find? (Event.isFor dir start)).map .ok := fun hr =>
    Watcher.outcome?_of_retained (w := { id := (), dir, start }) h.ledger hstart
      (by rw [h.capacity_eq]; exact hr)
  refine ⟨⟨fun ⟨cause, hs⟩ => ?_, hcleared⟩, fun hr => ⟨fun e => ?_, ?_⟩, h.complete, fun hn => ?_⟩
  · refine Nat.not_lt.1 fun hr => ?_
    rw [hretained hr] at hs
    simp at hs
  · rw [hretained hr, ← h.ledger.find?_eq_some_iff]
    simp
  · rw [hretained hr]
    simp
  · have hbegin : 1 ≤ f.wait.start := Nat.le_trans hstart h.forward
    have hr : f.store.index < f.wait.start + f.store.capacity := by
      refine Nat.not_le.1 fun hc => ?_
      obtain ⟨cause, hcause⟩ := Watcher.outcome?_of_cleared h.ledger hbegin hc
      rw [hcause] at hn; cases hn
    rw [Watcher.outcome?_of_retained h.ledger hbegin hr, h.dir_eq, Option.map_eq_none_iff,
      List.find?_eq_none] at hn
    rw [← h.complete, List.filter_eq_nil_iff.2 hn, List.append_nil]

/-- With room for two events: the first look brings the creation of the first key, and the next one
its deletion, over two mutations elsewhere in between; then the first place has left the history. -/
theorem two_followed :
    let turns := [.create "/a/1" "", .look, .create "/b" "", .delete "/a/1", .look]
    let f := (ofStart (.empty 2) "/a" 1).run turns
    f.received = [⟨.create, "/a/1", 1⟩, ⟨.delete, "/a/1", 3⟩] ∧
    ∃ cause, Watcher.outcome? f.store { id := (), dir := "/a", start := 1 } =
      some (.error (.transient cause)) := by
  intro turns f
  have h := watch_lossless 2 (by decide) "/a" 1 (by decide) turns
  exact ⟨(h.2.2.2 (by decide)).trans (by decide), h.1.2 (by decide)⟩

end Follower
end Muster
