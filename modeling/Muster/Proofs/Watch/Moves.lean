/-
What can happen at a registry watch in one step, and what a run leaves in the record: `Move` lists every
way in which a step changes store and loop together with its marks, and `Lookout.history` collects the
marks of a run.
-/
import Muster.Proofs.History
import Muster.Proofs.Store.Ledger
import Muster.Watch.Lookout

namespace Muster.Watch

/-! ## Marks -/

/-- What happens at a lookout. -/
inductive Mark where
  /-- A poll begins. -/
  | began
  | failed
  | committed (e : Event)
  /-- The loop rings the bell. -/
  | rang
deriving DecidableEq, Repr

namespace Lookout

def rung (rings : Bool) : List Mark := if rings then [.rang] else []

/-- The event that a mutation has recorded, if there was one. -/
def recorded (action : Action) (key : String) : Except Fault Store → List Mark
  | .ok store => [.committed ⟨action, key, store.index⟩]
  | .error _ => []

/-- The marks of a step, in their order. -/
def marks (l : Lookout) : Step → List Mark
  | .create key value => recorded .create key (l.store.create key value)
  | .delete key => recorded .delete key (l.store.delete key)
  | .poll => if l.loop.phase = .idle then [.began] else []
  | .fail =>
    match l.loop.phase with
    | .idle => .began :: .failed :: rung (l.loop.lost l.now).1
    | .polling _ => .failed :: rung (l.loop.lost l.now).1
    | _ => []
  | .hear =>
    match l.loop.outcome? l.store with
    | some (.ok e) => rung (l.loop.heard e).1
    | some (.error _) => .failed :: rung (l.loop.lost l.now).1
    | none => []
  | _ => []

/-- The marks of a run, from its beginning to its end. -/
def history (l : Lookout) (steps : List Step) : List Mark :=
  Muster.history (fun l s => (l.step s).2) marks l steps

/-! ## What a step can do -/

/-- Store and loop go on, and leave marks. -/
inductive Move (store : Store) (loop : Loop) : List Mark → Store → Loop → Prop
  | stay : Move store loop [] store loop
  | commit {action : Action} (key : String) (entries : List Entry) : action.isMutation = true →
      Move store loop [.committed ⟨action, key, store.index + 1⟩]
        { store.record action key with entries } loop
  | poll : loop.phase = .idle → Move store loop [.began] store (loop.poll store)
  /-- A poll fails: the loop begins it in vain, it breaks off, or the store refuses it. -/
  | fail {opening : List Mark} (now : Nat) : opening = [] ∨ opening = [.began] →
      Move store loop (opening ++ [.failed, .rang]) store (loop.lost now).2
  | hear {start : Nat} {e : Event} : loop.phase = .polling start →
      store.eventFrom loop.dir start = .ok (some e) →
      Move store loop (rung e.action.isMutation) store (loop.heard e).2
  | rouse {due : Nat} : loop.phase = .resting due →
      Move store loop [] store { loop with phase := .idle }
  | stop : Move store loop [] store loop.stop

theorem outcome?_cases {loop : Loop} {store : Store} {r : Except Fault Event}
    (h : loop.outcome? store = some r) :
    ∃ start, loop.phase = .polling start ∧
      ((∃ e, r = .ok e ∧ store.eventFrom loop.dir start = .ok (some e)) ∨ ∃ f, r = .error f) := by
  unfold Loop.outcome? at h
  split at h
  · rename_i start hp
    refine ⟨start, hp, ?_⟩
    split at h
    · cases h; exact .inr ⟨_, rfl⟩
    · rename_i e he; cases h; exact .inl ⟨e, rfl, he⟩
    · cases h
  · cases h

theorem goOn_snd (l : Lookout) (r : Bool × Loop) :
    (l.goOn r).2.store = l.store ∧ (l.goOn r).2.loop = r.2 := by
  obtain ⟨rings, loop⟩ := r
  cases rings <;> exact ⟨rfl, rfl⟩

theorem goOn_move {l : Lookout} {marks : List Mark} {r : Bool × Loop}
    (h : Move l.store l.loop marks l.store r.2) :
    Move l.store l.loop marks (l.goOn r).2.store (l.goOn r).2.loop := by
  obtain ⟨hs, hl⟩ := goOn_snd l r
  rw [hs, hl]; exact h

theorem mutated_move (l : Lookout) {action : Action} (ha : action.isMutation = true) (key : String)
    {r : Except Fault Store} (hr : (∃ entries, r = .ok { l.store.record action key with entries }) ∨
      ∃ f, r = .error f) :
    Move l.store l.loop (recorded action key r) (l.mutated r).store (l.mutated r).loop := by
  rcases hr with ⟨entries, rfl⟩ | ⟨f, rfl⟩
  · exact .commit key entries ha
  · exact .stay

/-- Every step is one of the moves, with the marks that belong to it. -/
theorem step_move (l : Lookout) (s : Step) :
    Move l.store l.loop (l.marks s) (l.step s).2.store (l.step s).2.loop := by
  cases s with
  | tick | listen | leave | take => exact .stay
  | create key value =>
    exact l.mutated_move rfl key ((l.store.create_cases key value).imp_right fun h => ⟨_, h⟩)
  | delete key => exact l.mutated_move rfl key ((l.store.delete_cases key).imp_right fun h => ⟨_, h⟩)
  | poll =>
    cases hp : l.loop.phase with
    | idle => simp only [marks, step, hp]; exact .poll hp
    | polling | resting | ended => simp only [marks, step, hp]; exact .stay
  | fail =>
    cases hp : l.loop.phase with
    | idle => simp only [marks, step, hp]; exact goOn_move (.fail l.now (.inr rfl))
    | polling start => simp only [marks, step, hp]; exact goOn_move (.fail l.now (.inl rfl))
    | resting | ended => simp only [marks, step, hp]; exact .stay
  | hear =>
    simp only [marks, step]
    cases ho : l.loop.outcome? l.store with
    | none => exact .stay
    | some r =>
      obtain ⟨start, hp, ⟨e, rfl, he⟩ | ⟨f, rfl⟩⟩ := outcome?_cases ho
      · exact goOn_move (.hear hp he)
      · exact goOn_move (.fail l.now (.inl rfl))
  | rouse =>
    simp only [marks, step, Loop.rouse]
    split
    · rename_i due hp
      split
      · exact .stay
      · exact .rouse hp
    · exact .stay
  | stop => exact .stop

/-- What every move keeps, a run keeps, together with the marks left so far. -/
theorem run_invariant {P : Store → Loop → List Mark → Prop}
    (hmove : ∀ {store loop marks store' loop' log}, Move store loop marks store' loop' →
      P store loop log → P store' loop' (log ++ marks))
    (l : Lookout) (h : P l.store l.loop []) (steps : List Step) :
    P (l.run steps).store (l.run steps).loop (l.history steps) :=
  Muster.run_invariant (P := fun l log => P l.store l.loop log)
    (fun l s _ hP => hmove (step_move l s) hP) steps l [] h

end Lookout
end Muster.Watch
