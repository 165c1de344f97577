/-
What can happen in one step at the connection cache with its removers, and what a remover does that nobody
comes between: it removes the channels of its names one after another.
-/
import Muster.Client.Floor
import Muster.Proofs.Client.Moves

namespace Muster.Client

variable {ς : Type}

namespace Floor

/-- A step as it is seen at the desk; the steps of removers are not. -/
def Act.desk? : Act ς → Option (Client.Act ς)
  | enter id name => some (.enter id name)
  | go id => some (.go id)
  | answer id r => some (.answer id r)
  | drift i channel => some (.drift i channel)
  | close i => some (.close i)
  | clear _ _ | proceed _ => none

/-- The floor goes on by a step, and it is another floor then. -/
inductive Move (f : Floor ς) : Act ς → Floor ς → Prop
  | stay {a : Act ς} : Move f a f
  | desk {a : Act ς} {b : Client.Act ς} {notices : List Notice} {d : Desk ς} : a.desk? = some b →
      Desk.Move f.desk b notices d → Move f a { f with desk := d }
  | clear {id : Nat} (names : List String) : f.remover? id = none →
      Move f (.clear id names) { f with removers := f.removers ++ [(id, { names })] }
  | close {id i : Nat} {names : List String} : f.remover? id = some { names, hand := some i } →
      Move f (.proceed id) ({ f with desk := f.desk.closeChannel i }.setRemover id { names })
  | takeOut {id : Nat} {name : String} {names : List String} :
      f.remover? id = some { names := name :: names } →
      Move f (.proceed id) ({ f with desk := (f.desk.takeOut name).2 }.setRemover id
        { names, hand := f.desk.cache.find? name })

/-- Every step is one of the moves. -/
theorem step_move (f : Floor ς) (a : Act ς) : Move f a (f.act a) := by
  cases a with
  | enter id name => exact .desk rfl (Desk.step_move f.desk (.enter id name))
  | go id => exact .desk rfl (Desk.step_move f.desk (.go id))
  | answer id r => exact .desk rfl (Desk.step_move f.desk (.answer id r))
  | drift i channel => exact .desk rfl (Desk.step_move f.desk (.drift i channel))
  | close i => exact .desk rfl (Desk.step_move f.desk (.close i))
  | clear id names =>
    unfold act
    cases hr : f.remover? id with
    | none => simp only [hr, Option.isSome_none, Bool.false_eq_true, if_false]; exact .clear names hr
    | some r => simp only [hr, Option.isSome_some, if_true]; exact .stay
  | proceed id =>
    show Move f (.proceed id) (f.proceed id)
    unfold proceed
    split
    · rename_i hr; exact .close hr
    · rename_i hr; exact .takeOut hr
    · exact .stay

theorem run_append (f : Floor ς) (as bs : List (Act ς)) : f.run (as ++ bs) = (f.run as).run bs :=
  List.foldl_append

theorem run_concat (f : Floor ς) (as : List (Act ς)) (a : Act ς) :
    f.run (as ++ [a]) = (f.run as).act a :=
  run_append f as [a]

variable {f f' : Floor ς} {a : Act ς}

/-! ## Removers -/

theorem remover?_setRemover {id : Nat} {r : Remover} (h : f.remover? id = some r) (d : Desk ς)
    (s : Remover) (j : Nat) : ({ f with desk := d }.setRemover id s).remover? j =
      if j = id then some s else f.remover? j := by
  refine (lookup_map_at id j (fun _ => s) f.removers).trans ?_
  show (if j = id then (f.remover? j).map _ else f.remover? j) = _
  by_cases hj : j = id
  · rw [if_pos hj, if_pos hj, hj, h, Option.map_some]
  · rw [if_neg hj, if_neg hj]

theorem remover?_clear {id : Nat} (h : f.remover? id = none) (names : List String) (j : Nat) :
    Floor.remover? { f with removers := f.removers ++ [(id, { names })] } j =
      if j = id then some { names } else f.remover? j := by
  show (f.removers ++ [(id, ({ names } : Remover))]).lookup j = _
  rw [List.lookup_append, lookup_cons_if]
  show (f.remover? j).or _ = _
  by_cases hj : j = id
  · rw [if_pos hj, if_pos hj, hj, h, Option.none_or]
  · rw [if_neg hj, if_neg hj, List.lookup_nil, Option.or_none]

/-! ## A remover alone -/

/-- A remover that nobody comes between removes its channels, one after another. -/
theorem run_proceed {id : Nat} {names : List String} (h : f.remover? id = some { names }) :
    ∃ n, (f.run (List.replicate n (.proceed id))).desk =
      names.foldl (fun d name => (d.remove name).2) f.desk := by
  induction names generalizing f with
  | nil => exact ⟨0, rfl⟩
  | cons name names ih =>
    have htake : f.act (.proceed id) = ({ f with desk := (f.desk.takeOut name).2 }.setRemover id
        { names, hand := f.desk.cache.find? name }) := by
      show f.proceed id = _
      unfold proceed
      rw [h]; rfl
    have hr := remover?_setRemover h (f.desk.takeOut name).2
      { names, hand := f.desk.cache.find? name } id
    rw [if_pos rfl, ← htake] at hr
    cases hf : f.desk.cache.find? name with
    | none =>
      rw [hf] at hr
      obtain ⟨n, hn⟩ := ih hr
      refine ⟨n + 1, ?_⟩
      show ((f.act (.proceed id)).run (List.replicate n (.proceed id))).desk = _
      rw [hn, htake, List.foldl_cons]
      congr 1
      unfold Desk.remove Desk.takeOut
      rw [hf]; rfl
    | some i =>
      rw [hf] at hr
      have hclose : (f.act (.proceed id)).act (.proceed id) =
          ({ f.act (.proceed id) with desk := (f.act (.proceed id)).desk.closeChannel i }.setRemover
            id { names }) := by
        show (f.act (.proceed id)).proceed id = _
        rw [proceed, hr]
      have hr' := remover?_setRemover hr ((f.act (.proceed id)).desk.closeChannel i) { names } id
      rw [if_pos rfl, ← hclose] at hr'
      obtain ⟨n, hn⟩ := ih hr'
      refine ⟨n + 2, ?_⟩
      show (((f.act (.proceed id)).act (.proceed id)).run (List.replicate n (.proceed id))).desk = _
      rw [hn, hclose, htake, List.foldl_cons]
      congr 1
      unfold Desk.remove Desk.takeOut
      rw [hf]; rfl

/-- To go through all names that are cached is to close all channels, if nobody comes between. -/
theorem clear_closeAll {id : Nat} (h : f.remover? id = none) : ∃ n,
    (f.run (.clear id (f.desk.cache.entries.map (·.1)) :: List.replicate n (.proceed id))).desk =
      f.desk.closeAll := by
  have hclear : f.act (.clear id (f.desk.cache.entries.map (·.1))) =
      { f with removers := f.removers ++ [(id, { names := f.desk.cache.entries.map (·.1) })] } := by
    simp only [act, h, Option.isSome_none, Bool.false_eq_true, if_false]
  have hr := remover?_clear h (f.desk.cache.entries.map (·.1)) id
  rw [if_pos rfl, ← hclear] at hr
  obtain ⟨n, hn⟩ := run_proceed hr
  refine ⟨n, hn.trans ?_⟩
  rw [hclear]; rfl

end Floor
end Muster.Client
