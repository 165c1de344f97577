/-
What can happen at the connection cache in one step, and what is heard of it. `Turn` lists every way
in which a caller comes from one point to the next, with the cache and the channels as it leaves
them; `Move` adds the steps that leave the callers where they are. `Desk.history` collects what is
heard in a run.
-/
import Muster.Client.Cache
import Muster.Proofs.History
import Muster.Proofs.Lookup

namespace Muster

namespace Channel

variable {ς : Type}

theorem shutdownAll_closed (is : List Nat) (c : Channel ς) : (c.shutdownAll is).closed = c.closed := by
  unfold shutdownAll
  induction is generalizing c with
  | nil => rfl
  | cons i is ih => rw [List.foldl_cons, ih]; rfl

@[simp] theorem close_closed (c : Channel ς) : c.close.closed = true := by
  unfold close
  split
  · assumption
  · exact shutdownAll_closed _ _

end Channel

namespace Client

/-! ## The cache -/

namespace Cache

variable (c : Cache) (name m : String)

@[simp] theorem find?_erase : (c.erase name).find? m = if m = name then none else c.find? m :=
  lookup_filter_bne name m c.entries

@[simp] theorem find?_insert (i : Nat) :
    (c.insert name i).find? m = if m = name then some i else c.find? m := by
  change ((c.erase name).entries ++ [(name, i)]).lookup m = _
  rw [List.lookup_append, lookup_cons_if]
  change ((c.erase name).find? m).or _ = _
  rw [find?_erase]
  by_cases hm : m = name
  · rw [if_pos hm, if_pos hm, if_pos hm, Option.none_or]
  · rw [if_neg hm, if_neg hm, if_neg hm, List.lookup_nil, Option.or_none]

@[simp] theorem queue_insert (i : Nat) : (c.insert name i).queue m = c.queue m := rfl

@[simp] theorem queue_setQueue (q : List Nat) :
    (c.setQueue name q).queue m = if m = name then q else c.queue m := by
  unfold queue setQueue
  rw [lookup_cons_if, lookup_filter_bne]
  by_cases hm : m = name
  · rw [if_pos hm, if_pos hm, Option.getD_some]
  · rw [if_neg hm, if_neg hm, if_neg hm]

/-- A caller leaves the queue of a name. -/
def leave (id : Nat) : Cache := c.setQueue name ((c.queue name).filter (· != id))

@[simp] theorem find?_leave (id : Nat) : (c.leave name id).find? m = c.find? m := rfl

theorem mem_queue_leave {id j : Nat} :
    j ∈ (c.leave name id).queue m ↔ j ∈ c.queue m ∧ (m = name → j ≠ id) := by
  unfold leave
  rw [queue_setQueue]
  by_cases hm : m = name
  · simp [hm]
  · simp [hm]

theorem mem_queue_join {id j : Nat} :
    j ∈ (c.setQueue name (c.queue name ++ [id])).queue m ↔ j ∈ c.queue m ∨ (m = name ∧ j = id) := by
  rw [queue_setQueue]
  by_cases hm : m = name
  · simp [hm]
  · simp [hm]

/-- Who has the right to dial keeps it when another leaves. -/
theorem holds_leave {id j : Nat} (h : c.holds m j = true) (hj : m = name → j ≠ id) :
    (c.leave name id).holds m j = true := by
  unfold holds leave at *
  rw [queue_setQueue]
  by_cases hm : m = name
  · subst hm
    rw [if_pos rfl]
    cases hq : c.queue m with
    | nil => rw [hq] at h; exact absurd h Bool.false_ne_true
    | cons k q =>
      rw [hq, List.head?_cons, beq_iff_eq, Option.some.injEq] at h
      rw [List.filter_cons_of_pos (by simpa [h] using hj rfl), List.head?_cons, h, beq_self_eq_true]
  · rw [if_neg hm]; exact h

/-- Who has the right to dial keeps it when another comes. -/
theorem holds_join {id j : Nat} (h : c.holds m j = true) :
    (c.setQueue name (c.queue name ++ [id])).holds m j = true := by
  unfold holds at *
  rw [queue_setQueue]
  by_cases hm : m = name
  · subst hm
    rw [if_pos rfl]
    cases hq : c.queue m with
    | nil => rw [hq] at h; exact absurd h Bool.false_ne_true
    | cons k q => rw [hq] at h; exact h
  · rw [if_neg hm]; exact h

theorem holds_unique {id j : Nat} (h : c.holds name id = true) (hj : c.holds name j = true) :
    j = id :=
  Option.some.inj ((beq_iff_eq.1 hj).symm.trans (beq_iff_eq.1 h))

theorem mem_queue_of_holds {id : Nat} (h : c.holds name id = true) : id ∈ c.queue name :=
  List.mem_of_mem_head? (beq_iff_eq.1 h)

end Cache

/-! ## Callers -/

namespace Desk

variable {ς : Type} (d : Desk ς)

theorem caller?_setProgress (id j : Nat) (p : Progress) :
    (d.setProgress id p).caller? j =
      if j = id then (d.caller? j).map ({ · with progress := p }) else d.caller? j :=
  lookup_map_at id j (fun c : Caller => { c with progress := p }) d.callers

theorem caller?_enter {id : Nat} {name : String} (h : d.caller? id = none) (j : Nat) :
    (d.enter id name).caller? j = if j = id then some { name } else d.caller? j := by
  change (d.callers ++ [(id, ({ name } : Caller))]).lookup j = _
  rw [List.lookup_append, lookup_cons_if]
  change (d.caller? j).or _ = _
  by_cases hj : j = id
  · rw [if_pos hj, if_pos hj, hj, h, Option.none_or]
  · rw [if_neg hj, if_neg hj, List.lookup_nil, Option.or_none]

/-- A caller comes to a point, and leaves the cache and the channels as they are given. -/
def turned (id : Nat) (p : Progress) (cache : Cache) (channels : List (Channel ς)) : Desk ς :=
  { d with cache, channels }.setProgress id p

variable {d}

theorem caller?_turned {id : Nat} {c : Caller} (h : d.caller? id = some c) (p : Progress)
    (cache : Cache) (channels : List (Channel ς)) (j : Nat) :
    (d.turned id p cache channels).caller? j =
      if j = id then some { c with progress := p } else d.caller? j := by
  refine (caller?_setProgress _ id j p).trans ?_
  change (if j = id then (d.caller? j).map _ else d.caller? j) = _
  by_cases hj : j = id
  · rw [if_pos hj, if_pos hj, hj, h, Option.map_some]
  · rw [if_neg hj, if_neg hj]

end Desk

/-! ## What is heard -/

/-- What can be heard of those who want the channel of a name. -/
inductive Notice where
  | began (name : String)
  | brought (name : String) (channel : Nat)
  | failed (name : String)
  /-- Somebody has seen a channel that is not alive. -/
  | dead (name : String) (channel : Nat)
deriving DecidableEq, Repr

/-- The name of the channel that is wanted. -/
def Notice.name : Notice → String
  | began name | brought name _ | failed name | dead name _ => name

/-- What is heard of a caller who comes from one point to another. -/
def Progress.heard (name : String) : Progress → Progress → List Notice
  | .dialing, .served i => [.brought name i]
  | .dialing, .failed _ => [.failed name]
  | .dialing, _ => []
  | .seeing i, .evicting _ => [.dead name i]
  | _, .dialing => [.began name]
  | _, _ => []

theorem Progress.name_of_heard {name : String} {p p' : Progress} {n : Notice}
    (h : n ∈ p.heard name p') : n.name = name := by
  unfold heard at h
  split at h <;> first | (cases h; done) | (rw [List.mem_singleton.1 h]; rfl)

@[simp] theorem Progress.heard_self (name : String) (p : Progress) : p.heard name p = [] := by
  cases p <;> rfl

namespace Desk

variable {ς : Type}

/-- What is heard of a caller between two desks. -/
def heard (d d' : Desk ς) (id : Nat) : List Notice :=
  match d.caller? id, d'.caller? id with
  | some c, some c' => c.progress.heard c.name c'.progress
  | _, _ => []

/-- What is heard of a step. -/
def notices (d : Desk ς) (a : Act ς) : List Notice :=
  match a with
  | .go id | .answer id _ => d.heard (d.act a) id
  | _ => []

/-- What is heard in a run, from its beginning to its end. -/
def history (d : Desk ς) (acts : List (Act ς)) : List Notice := Muster.history act notices d acts

/-! ## What a step can do -/

/-- A caller finds that nothing usable is cached, and leaves the channels so. -/
inductive Vain (d : Desk ς) (name : String) : Progress → List (Channel ς) → Prop
  | absent : d.cache.find? name = none → Vain d name .looking d.channels
  | replaced {i : Nat} : d.cache.find? name ≠ some i → Vain d name (.evicting i) d.channels
  | closed {i : Nat} : Vain d name (.closing i) (d.channels.modify i Channel.close)

/-- A caller comes from one point to the next, and leaves the cache and the channels so. -/
inductive Turn (d : Desk ς) (id : Nat) (name : String) :
    Act ς → Progress → Progress → Cache → List (Channel ς) → Prop
  | find {i : Nat} : d.cache.find? name = some i →
      Turn d id name (.go id) .looking (.seeing i) d.cache d.channels
  | serve {i : Nat} : (d.stateOf i).isUsable = true →
      Turn d id name (.go id) (.seeing i) (.served i) (d.cache.leave name id) d.channels
  | condemn {i : Nat} : (d.stateOf i).isUsable = false →
      Turn d id name (.go id) (.seeing i) (.evicting i) d.cache d.channels
  | evict {i : Nat} : d.cache.find? name = some i →
      Turn d id name (.go id) (.evicting i) (.closing i) (d.cache.erase name) d.channels
  | begin {p : Progress} {channels : List (Channel ς)} : Vain d name p channels →
      d.cache.holds name id = true → Turn d id name (.go id) p .dialing d.cache channels
  | miss {p : Progress} {channels : List (Channel ς)} : Vain d name p channels →
      d.cache.holds name id = false → Turn d id name (.go id) p .joining d.cache channels
  | join : Turn d id name (.go id) .joining .queued
      (d.cache.setQueue name (d.cache.queue name ++ [id])) d.channels
  | rise : d.cache.holds name id = true →
      Turn d id name (.go id) .queued .looking d.cache d.channels
  | bring (channel : Channel ς) :
      Turn d id name (.answer id (.ok channel)) .dialing (.served d.channels.length)
        ((d.cache.insert name d.channels.length).leave name id) (d.channels ++ [channel])
  | fail (f : Fault) :
      Turn d id name (.answer id (.error f)) .dialing (.failed f) (d.cache.leave name id) d.channels

/-- The desk goes on by a step, something is heard, and it is another desk then. -/
inductive Move (d : Desk ς) : Act ς → List Notice → Desk ς → Prop
  | stay {a : Act ς} : Move d a [] d
  | enter {id : Nat} {name : String} : d.caller? id = none →
      Move d (.enter id name) [] (d.enter id name)
  | turn {a : Act ς} {id : Nat} {c : Caller} {p : Progress} {cache : Cache}
      {channels : List (Channel ς)} : d.caller? id = some c →
      Turn d id c.name a c.progress p cache channels →
      Move d a (c.progress.heard c.name p) (d.turned id p cache channels)
  | drift (i : Nat) (channel : Channel ς) : Move d (.drift i channel) [] { d with
      channels := d.channels.modify i fun c => { channel with closed := c.closed } }
  | takeOut (name : String) : Move d (.takeOut name) [] { d with cache := d.cache.erase name }
  | close (i : Nat) : Move d (.close i) [] (d.closeChannel i)

theorem heard_turned {d : Desk ς} {id : Nat} {c : Caller} (h : d.caller? id = some c)
    (p : Progress) (cache : Cache) (channels : List (Channel ς)) :
    d.heard (d.turned id p cache channels) id = c.progress.heard c.name p := by
  unfold heard
  rw [caller?_turned h, if_pos rfl, h]

theorem heard_self (d : Desk ς) (id : Nat) : d.heard d id = [] := by
  unfold heard
  cases d.caller? id with
  | none => rfl
  | some c => exact Progress.heard_self _ _

theorem missed_turn {d : Desk ς} (id : Nat) {name : String} {p : Progress}
    {channels : List (Channel ς)} (h : Vain d name p channels) : ∃ p',
      Turn d id name (.go id) p p' d.cache channels ∧
      { d with channels }.missed id name = d.turned id p' d.cache channels := by
  unfold missed
  cases hh : d.cache.holds name id with
  | true => exact ⟨.dialing, .begin h hh, rfl⟩
  | false => exact ⟨.joining, .miss h hh, rfl⟩

/-- A step of a caller is one of the turns. -/
theorem step_turn {d d' : Desk ς} {id : Nat} (h : d.step id = some d') :
    ∃ c p cache channels, d.caller? id = some c ∧
      Turn d id c.name (.go id) c.progress p cache channels ∧
      d' = d.turned id p cache channels := by
  obtain ⟨c, hc, h⟩ := Option.bind_eq_some_iff.1 h
  suffices ∃ p cache channels, Turn d id c.name (.go id) c.progress p cache channels ∧
      d' = d.turned id p cache channels by
    obtain ⟨p, cache, channels, h⟩ := this
    exact ⟨c, p, cache, channels, hc, h⟩
  cases hp : c.progress with
  | looking =>
    simp only [hp] at h
    split at h
    · rename_i hf
      obtain ⟨p, ht, hm⟩ := missed_turn id (Vain.absent hf)
      exact ⟨p, _, _, ht, (Option.some.inj h).symm.trans hm⟩
    · rename_i i hf; exact ⟨_, _, _, .find hf, (Option.some.inj h).symm⟩
  | seeing i =>
    simp only [hp] at h
    split at h
    · rename_i hu; exact ⟨_, _, _, .serve hu, (Option.some.inj h).symm⟩
    · rename_i hu
      exact ⟨_, _, _, .condemn (Bool.not_eq_true _ ▸ hu), (Option.some.inj h).symm⟩
  | evicting i =>
    simp only [hp] at h
    split at h
    · rename_i hf; exact ⟨_, _, _, .evict hf, (Option.some.inj h).symm⟩
    · rename_i hf
      obtain ⟨p, ht, hm⟩ := missed_turn id (Vain.replaced hf)
      exact ⟨p, _, _, ht, (Option.some.inj h).symm.trans hm⟩
  | closing i =>
    simp only [hp] at h
    obtain ⟨p, ht, hm⟩ := missed_turn id (.closed : Vain d c.name (.closing i) _)
    exact ⟨p, _, _, ht, (Option.some.inj h).symm.trans hm⟩
  | joining => simp only [hp] at h; exact ⟨_, _, _, .join, (Option.some.inj h).symm⟩
  | queued =>
    simp only [hp] at h
    split at h
    · rename_i hh; exact ⟨_, _, _, .rise hh, (Option.some.inj h).symm⟩
    · cases h
  | dialing | served | failed => simp only [hp] at h; cases h

theorem dialed_turn (d : Desk ς) (id : Nat) (name : String) (r : Except Fault (Channel ς)) :
    ∃ p cache channels, Turn d id name (.answer id r) .dialing p cache channels ∧
      d.dialed id name r = d.turned id p cache channels := by
  cases r with
  | error f => exact ⟨_, _, _, .fail f, rfl⟩
  | ok channel => exact ⟨_, _, _, .bring channel, rfl⟩

/-- Every step is one of the moves, with what is heard of it. -/
theorem step_move (d : Desk ς) (a : Act ς) : Move d a (d.notices a) (d.act a) := by
  cases a with
  | enter id name =>
    unfold act notices
    cases hc : d.caller? id with
    | none => simp only [hc, Option.isSome_none, Bool.false_eq_true, if_false]; exact .enter hc
    | some c => simp only [hc, Option.isSome_some, if_true]; exact .stay
  | go id =>
    change Move d (.go id) (d.heard ((d.step id).getD d) id) ((d.step id).getD d)
    cases hs : d.step id with
    | none => rw [Option.getD_none, heard_self]; exact .stay
    | some d' =>
      obtain ⟨c, p, cache, channels, hc, ht, rfl⟩ := step_turn hs
      rw [Option.getD_some, heard_turned hc]
      exact .turn hc ht
  | answer id r =>
    simp only [notices, act]
    split
    · rename_i name hc
      obtain ⟨p, cache, channels, ht, hd⟩ := dialed_turn d id name r
      rw [hd, heard_turned hc]
      exact .turn hc ht
    · rw [heard_self]; exact .stay
  | drift i channel => exact .drift i channel
  | takeOut name => exact .takeOut name
  | close i => exact .close i

/-- What every move of the steps taken keeps, a run keeps, together with what has been heard. -/
theorem run_invariant {P : Desk ς → List Notice → Prop} {allowed : Act ς → Prop}
    (hmove : ∀ {d a notices d' log}, allowed a → Move d a notices d' → P d log →
      P d' (log ++ notices))
    (d : Desk ς) (h : P d []) (acts : List (Act ς)) (ha : ∀ a ∈ acts, allowed a) :
    P (d.run acts) (d.history acts) :=
  run_invariant_of (fun d a _ hallowed hP => hmove hallowed (step_move d a) hP) acts ha d [] h

end Desk
end Client
end Muster
