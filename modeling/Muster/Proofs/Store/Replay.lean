/-
The store as the replay of its log, the list of all mutations that were not refused, each with the
value it wrote. What the store counts and retains is read off the log's length and its end; what a
key holds is what its last change left; and a listing at a later time is an earlier one with the
events in between applied to it. Main statement: `replay`.
-/
import Mathlib.Data.Finset.Basic
import Mathlib.Data.Finset.Dedup
import Muster.Proofs.Store.Entries
import Muster.Proofs.Store.Following

namespace Muster

/-! ## The log -/

/-- A mutation that was not refused: what its key holds from then on, and its number. -/
structure Change where
  key : String
  /-- What a create has written; a deletion leaves nothing. -/
  value : Option String
  index : Nat
deriving DecidableEq, Repr

namespace Change

/-- The event that watchers are told of a change. -/
def event (c : Change) : Event :=
  ⟨if c.value.isSome then .create else .delete, c.key, c.index⟩

/-- The entry that a change leaves under its key. -/
def entry? (c : Change) : Option Entry := c.value.map fun value => ⟨c.key, value, c.index⟩

theorem entry?_key {c : Change} {e : Entry} (h : c.entry? = some e) : e.key = c.key := by
  obtain ⟨value, -, rfl⟩ := Option.map_eq_some_iff.1 h
  rfl

theorem isSome_entry? (c : Change) : c.entry?.isSome = c.value.isSome := Option.isSome_map

end Change

/-- The keys of a directory after an event. -/
def Event.applied (keys : Finset String) (e : Event) : Finset String :=
  match e.action with
  | .create => insert e.key keys
  | .delete => keys.erase e.key
  | _ => keys

theorem Change.mem_applied {keys : Finset String} {c : Change} {key : String} :
    key ∈ c.event.applied keys ↔ if c.key = key then c.value.isSome = true else key ∈ keys := by
  obtain ⟨k, _ | value, index⟩ := c
  · simp [event, Event.applied]
    grind
  · simp [event, Event.applied]
    grind

/-- A key lies in a directory, and is not the directory itself. -/
def Path.isBelow (dir key : String) : Bool := key != dir && isUnder dir key

namespace Event

/-- The event of a key that a listing of the directory may show. -/
def isBelow (dir : String) (e : Event) : Bool := Path.isBelow dir e.key

/-- Such an event with a number behind `i`, and up to `j`. -/
def isBetween (dir : String) (i j : Nat) (e : Event) : Bool :=
  decide (i < e.index ∧ e.index ≤ j) && e.isBelow dir

end Event

namespace Store

/-- What the last change of a key has left under it. -/
def leftBy (log : List Change) (key : String) : Option Entry :=
  (log.reverse.find? (·.key == key)).bind Change.entry?

/-- The change that a turn makes, if it is not refused. -/
def changed (s : Store) : Turn → List Change
  | .create key value =>
    match s.create key value with
    | .ok t => [⟨key, some value, t.index⟩]
    | .error _ => []
  | .delete key =>
    match s.delete key with
    | .ok t => [⟨key, none, t.index⟩]
    | .error _ => []
  | .look => []

/-- The changes of several turns, in their order. -/
def log (s : Store) (turns : List Turn) : List Change := Muster.history turn changed s turns

variable {log : List Change} {c : Change} {s t : Store} {key value dir : String}

/-- A change speaks for its own key, and for the others the log before it does. -/
theorem leftBy_concat : leftBy (log ++ [c]) key =
    if c.key = key then c.entry? else leftBy log key := by
  rw [leftBy, List.reverse_append, List.reverse_singleton, List.singleton_append, List.find?_cons]
  split
  · rename_i h
    rw [if_pos (beq_iff_eq.1 h)]
    rfl
  · rename_i h
    rw [if_neg (beq_eq_false_iff_ne.1 h)]
    rfl

theorem leftBy_key {e : Entry} (h : leftBy log key = some e) : e.key = key := by
  obtain ⟨c, hc, he⟩ := Option.bind_eq_some_iff.1 h
  rw [Change.entry?_key he]
  simpa using List.find?_some hc

/-- The log tells what watchers are told. -/
theorem commits_eq_changed (s : Store) (t : Turn) : s.commits t = (s.changed t).map Change.event := by
  cases t with
  | create key value =>
    rw [commits, changed]
    cases s.create key value <;> rfl
  | delete key =>
    rw [commits, changed]
    cases s.delete key <;> rfl
  | look => rfl

theorem mutations_eq_log : ∀ (turns : List Turn) (s : Store),
    s.mutations turns = (s.log turns).map Change.event
  | [], _ => rfl
  | t :: turns, s => by
    rw [mutations, Muster.history, log, Muster.history, List.map_append, ← commits_eq_changed]
    exact congrArg _ (mutations_eq_log turns (s.turn t))

/-! ## What the entries are -/

/-- The entries of a store are what a log leaves. -/
def Replays (log : List Change) (s : Store) : Prop :=
  ∀ e, e ∈ s.entries ↔ leftBy log e.key = some e

namespace Replays

theorem find? (h : Replays log s) : find? key s.entries = leftBy log key := by
  rcases hf : Store.find? key s.entries with _ | e
  · rcases hs : leftBy log key with _ | e
    · rfl
    · have hkey := leftBy_key hs
      exact absurd hkey (Store.find?_none hf e ((h e).2 (hkey ▸ hs)))
  · obtain ⟨he, rfl⟩ := Store.find?_some hf
    exact ((h e).1 he).symm

theorem get (h : Replays log s) : s.get key =
    match leftBy log key with
    | some e => .ok e
    | none => .error (.notFound key) := by
  rw [← h.find?]
  rfl

/-- A create is refused exactly at a key that holds something. -/
theorem create_error_iff (h : Replays log s) {f : Fault} :
    s.create key value = .error f ↔ f = .conflict key ∧ (leftBy log key).isSome := by
  rw [← h.find?]
  rcases hf : Store.find? key s.entries with _ | e
  · obtain ⟨t, ht, -⟩ := create_free hf value
    simp [ht]
  · simp [create_taken hf, eq_comm]

/-- A deletion is refused exactly at a key that holds nothing. -/
theorem delete_error_iff (h : Replays log s) {f : Fault} :
    s.delete key = .error f ↔ f = .notFound key ∧ leftBy log key = none := by
  rw [← h.find?]
  rcases hf : Store.find? key s.entries with _ | e
  · simp [delete_missing hf, eq_comm]
  · obtain ⟨t, ht, -⟩ := delete_held hf
    simp [ht]

theorem create (h : Replays log s) (hfree : Store.find? key s.entries = none)
    (ht : ∀ e, e ∈ t.entries ↔ e = ⟨key, value, s.index + 1⟩ ∨ e ∈ s.entries) :
    Replays (log ++ [⟨key, some value, s.index + 1⟩]) t := by
  intro e
  rw [ht, leftBy_concat]
  split
  · rename_i hkey
    constructor
    · rintro (rfl | he)
      · rfl
      · exact absurd hkey.symm (find?_none hfree e he)
    · intro he
      exact .inl (Option.some.inj he).symm
  · rename_i hkey
    rw [← h e, or_iff_right]
    rintro rfl
    exact hkey rfl

theorem delete (h : Replays log s) {i : Nat}
    (ht : ∀ e, e ∈ t.entries ↔ e ∈ s.entries ∧ e.key ≠ key) :
    Replays (log ++ [⟨key, none, i⟩]) t := by
  intro e
  rw [ht, leftBy_concat, h e]
  split
  · rename_i hkey
    exact iff_of_false (fun he => he.2 hkey.symm) nofun
  · rename_i hkey
    exact and_iff_left (Ne.symm hkey)

/-- Every turn leaves the store as the replay of its log. -/
theorem turn (h : Replays log s) (t : Turn) : Replays (log ++ s.changed t) (s.turn t) := by
  cases t with
  | create key value =>
    rcases hf : Store.find? key s.entries with _ | e
    · obtain ⟨u, hu, hmem⟩ := create_free hf value
      have hindex : u.index = s.index + 1 := by
        rcases s.create_cases key value with ⟨entries, hc⟩ | hc <;> rw [hu] at hc <;> cases hc
        rfl
      rw [changed, Store.turn, hu]
      show Replays (log ++ [⟨key, some value, u.index⟩]) u
      rw [hindex]
      exact h.create hf hmem
    · rw [changed, Store.turn, create_taken hf, List.append_nil]
      exact h
  | delete key =>
    rcases hf : Store.find? key s.entries with _ | e
    · rw [changed, Store.turn, delete_missing hf, List.append_nil]
      exact h
    · obtain ⟨u, hu, hmem⟩ := delete_held hf
      rw [changed, Store.turn, hu]
      exact h.delete hmem
  | look =>
    rw [changed, List.append_nil]
    exact h

theorem course (h : Replays log s) (turns : List Turn) :
    Replays (log ++ s.log turns) (s.course turns) :=
  Muster.run_invariant (P := fun s log => Replays log s) (fun _ t _ h => h.turn t) turns s log h

theorem replays_log (capacity : Nat) (turns : List Turn) :
    Replays ((empty capacity).log turns) ((empty capacity).course turns) :=
  have start : Replays [] (empty capacity) := fun _ => iff_of_false List.not_mem_nil nofun
  start.course turns

end Replays

/-! ## What a listing shows -/

/-- The keys that a listing shows; a directory that is not there shows none. -/
def keysBelow (s : Store) (dir : String) : Finset String :=
  match s.list dir with
  | .ok entries => (entries.map (·.key)).toFinset
  | .error _ => ∅

theorem list_error {f : Fault} (h : s.list dir = .error f) : f = .notFound dir := by
  unfold list at h
  split at h <;> cases h
  rfl

theorem keysBelow_eq (s : Store) (dir : String) : s.keysBelow dir =
    ((s.entries.filter fun e => Path.isBelow dir e.key).map (·.key)).toFinset := by
  unfold keysBelow list Path.isBelow
  cases s.entries.filter fun e => e.key != dir && Path.isUnder dir e.key <;> rfl

theorem Replays.mem_keysBelow (h : Replays log s) :
    key ∈ s.keysBelow dir ↔ (leftBy log key).isSome ∧ Path.isBelow dir key = true := by
  rw [keysBelow_eq, List.mem_toFinset, List.mem_map]
  constructor
  · rintro ⟨e, he, rfl⟩
    obtain ⟨he, hbelow⟩ := List.mem_filter.1 he
    exact ⟨by rw [(h e).1 he]; rfl, hbelow⟩
  · rintro ⟨hs, hbelow⟩
    obtain ⟨e, he⟩ := Option.isSome_iff_exists.1 hs
    obtain rfl := leftBy_key he
    exact ⟨e, List.mem_filter.2 ⟨(h e).2 he, hbelow⟩, rfl⟩

/-- A turn makes one change, or none. -/
theorem changed_cases (s : Store) (t : Turn) : s.changed t = [] ∨ ∃ c, s.changed t = [c] := by
  cases t with
  | create key value =>
    rw [changed]
    cases s.create key value <;> simp
  | delete key =>
    rw [changed]
    cases s.delete key <;> simp
  | look => exact .inl rfl

/-- The listing after a turn is the one before with the event of the turn applied to it, if that is
below the directory. -/
theorem Replays.keysBelow_turn (h : Replays log s) (t : Turn) (dir : String) :
    (s.turn t).keysBelow dir =
      ((s.commits t).filter (Event.isBelow dir)).foldl Event.applied (s.keysBelow dir) := by
  have hturn := h.turn t
  rw [commits_eq_changed]
  ext key
  rcases s.changed_cases t with hc | ⟨c, hc⟩ <;> rw [hc] at hturn ⊢
  · rw [List.append_nil] at hturn
    rw [hturn.mem_keysBelow]
    exact h.mem_keysBelow.symm
  rw [hturn.mem_keysBelow, leftBy_concat, List.map_singleton]
  by_cases hb : c.event.isBelow dir = true
  · rw [List.filter_cons_of_pos hb, List.filter_nil, List.foldl_cons, List.foldl_nil,
      Change.mem_applied, h.mem_keysBelow]
    split
    · rename_i hkey
      subst hkey
      rw [and_iff_left (show Path.isBelow dir c.key = true from hb), Change.isSome_entry?]
    · rfl
  · rw [List.filter_cons_of_neg hb, List.filter_nil, List.foldl_nil, h.mem_keysBelow]
    refine and_congr_left fun hkey => ?_
    rw [if_neg]
    rintro rfl
    exact hb hkey

/-- A later listing is an earlier one with all events in between applied to it. -/
theorem Replays.keysBelow_course (dir : String) : ∀ (turns : List Turn) {log : List Change} {s : Store},
    Replays log s → (s.course turns).keysBelow dir =
      ((s.mutations turns).filter (Event.isBelow dir)).foldl Event.applied
        (s.keysBelow dir)
  | [], _, _, _ => rfl
  | t :: turns, _, s, h => by
    have := (h.turn t).keysBelow_course dir turns
    rw [mutations, Muster.history, List.filter_append, List.foldl_append, ← h.keysBelow_turn t dir]
    exact this

/-! ## Events between two numbers -/

/-- What has been added to a ledger bears higher numbers than what was in it. -/
theorem Ledger.length_lt {a b : List Event} (h : Ledger (a ++ b) s) {e : Event} (he : e ∈ b) :
    a.length < e.index := by
  have hmem : e.index ∈ ((a ++ b).map (·.index)).drop a.length := by
    rw [List.map_append, ← List.length_map (f := (·.index)), List.drop_left]
    exact List.mem_map_of_mem he
  rw [h.numbers, List.drop_range', List.mem_range'_1] at hmem
  omega

/-- The events of a ledger between the numbers of two of its states are those that have been added
from the one to the other. -/
theorem Ledger.filter_between {a b c : List Event} {t u : Store} (ha : Ledger a s)
    (hb : Ledger (a ++ b) t) (hc : Ledger (a ++ b ++ c) u) (p : Event → Bool) :
    ((a ++ b ++ c).filter fun e => decide (s.index < e.index ∧ e.index ≤ t.index) && p e) =
      b.filter p := by
  have hearly : (a.filter fun e => decide (s.index < e.index ∧ e.index ≤ t.index) && p e) = [] := by
    refine List.filter_eq_nil_iff.2 fun e he => ?_
    have := (ha.index_le he).2
    simp only [Bool.and_eq_true, decide_eq_true_eq]
    omega
  have hlate : (c.filter fun e => decide (s.index < e.index ∧ e.index ≤ t.index) && p e) = [] := by
    refine List.filter_eq_nil_iff.2 fun e he => ?_
    have := hc.length_lt he
    rw [← hb.count] at this
    simp only [Bool.and_eq_true, decide_eq_true_eq]
    omega
  rw [List.filter_append, List.filter_append, hearly, hlate, List.nil_append, List.append_nil]
  refine List.filter_congr fun e he => ?_
  have hlow := hb.length_lt he
  have hhigh := (hb.index_le (List.mem_append_right a he)).2
  rw [← ha.count] at hlow
  rw [decide_eq_true ⟨hlow, hhigh⟩, Bool.true_and]

/-- Between two moments of a run a listing changes by the events below its directory whose numbers lie
in between. -/
theorem keysBelow_between (capacity : Nat) (dir : String) (a b c : List Turn) :
    let i := ((empty capacity).course a).index
    let j := ((empty capacity).course (a ++ b)).index
    ((empty capacity).course (a ++ b)).keysBelow dir =
      ((((empty capacity).log (a ++ b ++ c)).map Change.event).filter
        (Event.isBetween dir i j)).foldl Event.applied (((empty capacity).course a).keysBelow dir) := by
  intro i j
  have ha := ledger_course capacity a
  have hb := ledger_course capacity (a ++ b)
  have hc := ledger_course capacity (a ++ b ++ c)
  rw [mutations_append, mutations_append] at hc
  rw [mutations_append] at hb
  -- of the whole log exactly what `b` has added bears a number between the two moments
  have hadded : (((empty capacity).log (a ++ b ++ c)).map Change.event).filter
      (Event.isBetween dir i j) =
        (((empty capacity).course a).mutations b).filter (Event.isBelow dir) := by
    rw [← mutations_eq_log, mutations_append, mutations_append]
    exact ha.filter_between hb hc (Event.isBelow dir)
  have hlater : (empty capacity).course (a ++ b) = ((empty capacity).course a).course b :=
    List.foldl_append
  rw [hadded, hlater]
  exact (Replays.replays_log capacity a).keysBelow_course dir b

/-- What the history holds: the events of the last numbers, as many as there is room for. -/
theorem Ledger.history_end {all : List Event} (h : Ledger all s) :
    s.history.length = min s.index s.capacity ∧
    s.history.map (·.index) = List.range' (s.clearedUpTo + 1) s.history.length ∧
    s.clearedUpTo = s.index - s.history.length := by
  have hcleared := h.cleared
  have hcount := h.count
  have hlength : s.history.length = all.length - s.clearedUpTo := by
    rw [h.retained, List.length_drop]
  refine ⟨by omega, ?_, by omega⟩
  rw [hlength, h.retained, List.map_drop, h.numbers, List.drop_range']
  congr 1
  omega

/-! ## The whole store -/

/-- What becomes of the mutation that a turn asks for. -/
def attempt (s : Store) : Turn → Except Fault Store
  | .create key value => s.create key value
  | .delete key => s.delete key
  | .look => .ok s

theorem turn_refused (s : Store) {t : Turn} {f : Fault} (h : s.attempt t = .error f) :
    s.turn t = s ∧ s.changed t = [] := by
  cases t with
  | create key value =>
    rw [attempt] at h
    rw [turn, changed, h]
    exact ⟨rfl, rfl⟩
  | delete key =>
    rw [attempt] at h
    rw [turn, changed, h]
    exact ⟨rfl, rfl⟩
  | look => cases h

/-- A store that has begun empty, after any turns. It counts the changes of its log and retains the
events of the last of them, numbered to the end; a key holds what its last change has left, under
the number of that change; creating and deleting are refused by what the key holds, and a refusal
changes nothing and shows no watcher anything new. A directory shows nothing or it is not there; and
between any two moments of the run what it shows changes by the events below it whose numbers lie in
between. -/
theorem replay (capacity : Nat) (turns : List Turn) :
    let s := (empty capacity).course turns
    let log := (empty capacity).log turns
    (s.index = log.length ∧
      s.history = (log.drop (log.length - max capacity 1)).map Change.event ∧
      s.history.length = min s.index (max capacity 1) ∧
      s.history.map (·.index) = List.range' (s.clearedUpTo + 1) s.history.length ∧
      s.clearedUpTo = s.index - s.history.length) ∧
    (∀ key, s.get key =
      match leftBy log key with
      | some e => .ok e
      | none => .error (.notFound key)) ∧
    (∀ key value f, s.create key value = .error f ↔
      f = .conflict key ∧ (leftBy log key).isSome) ∧
    (∀ key f, s.delete key = .error f ↔ f = .notFound key ∧ leftBy log key = none) ∧
    (∀ t f, s.attempt t = .error f → s.turn t = s ∧ s.changed t = [] ∧
      ∀ w : Watcher Unit, w.outcome? (s.turn t) = w.outcome? s) ∧
    (∀ dir f, s.list dir = .error f → f = .notFound dir) ∧
    ∀ dir a b c, turns = a ++ b ++ c →
      let i := ((empty capacity).course a).index
      let j := ((empty capacity).course (a ++ b)).index
      ((empty capacity).course (a ++ b)).keysBelow dir =
        ((log.map Change.event).filter (Event.isBetween dir i j)).foldl Event.applied
          (((empty capacity).course a).keysBelow dir) := by
  intro s log
  have hledger : Ledger (log.map Change.event) s := by
    rw [← mutations_eq_log]
    exact ledger_course capacity turns
  have hreplays : Replays log s := Replays.replays_log capacity turns
  have hcapacity : s.capacity = max capacity 1 := (empty capacity).course_capacity turns
  refine ⟨⟨?_, ?_, hcapacity ▸ hledger.history_end⟩, fun _ => hreplays.get,
    fun _ _ _ => hreplays.create_error_iff, fun _ _ => hreplays.delete_error_iff,
    fun t f ht => ?_, fun _ _ => list_error, ?_⟩
  · rw [hledger.count, List.length_map]
  · rw [hledger.retained, hledger.cleared, hcapacity, List.length_map, List.map_drop]
  · obtain ⟨hturn, hchanged⟩ := s.turn_refused ht
    exact ⟨hturn, hchanged, fun w => by rw [hturn]⟩
  · rintro dir a b c rfl
    exact keysBelow_between capacity dir a b c

/-- A store with room for two events. A key is written, removed and written anew while another one
stays; it holds what the second create has written, and the listing at the end is the one after the
first create with the events from there on applied. -/
theorem rewritten_key :
    let turns := [.create "/a/1" "x", .create "/a/2" "", .delete "/a/1", .create "/a/2" "z",
      .create "/b" "", .create "/a/1" "y"]
    let s := (empty 2).course turns
    s.get "/a/1" = .ok ⟨"/a/1", "y", 5⟩ ∧
    s.history = [⟨.create, "/b", 4⟩, ⟨.create, "/a/1", 5⟩] ∧
    s.keysBelow "/a/" = [⟨.create, "/a/2", 2⟩, ⟨.delete, "/a/1", 3⟩, ⟨.create, "/a/1", 5⟩].foldl
      Event.applied {"/a/1"} := by
  intro turns s
  have h := replay 2 turns
  refine ⟨(h.2.1 "/a/1").trans (by decide), h.1.2.1.trans (by decide), ?_⟩
  exact (h.2.2.2.2.2.2 "/a/" (turns.take 1) (turns.drop 1) [] rfl).trans (by decide)

end Store
end Muster
