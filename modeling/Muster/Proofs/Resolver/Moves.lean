/-
What can happen at a resolver in one step, and what a run leaves in the record: `Move` lists every way in
which a step changes the office together with its marks, and `Office.history` collects the marks of a run.
Those of the lookout stand among them.
-/
import Muster.Proofs.Watch.Moves
import Muster.Resolver.Office

namespace Muster.Resolver

/-- What happens at an office. -/
inductive Mark where
  | watch (m : Watch.Mark)
  /-- A resolution begins. -/
  | began
  /-- A list call has ended. -/
  | listed (r : Listing)
  /-- The sink is given a set. -/
  | told (set : AddressSet)
deriving DecidableEq

def Loop.isWaiting (l : Loop) : Bool :=
  match l.phase with
  | .waiting _ => true
  | _ => false

namespace Office

/-- The marks of a step, in their order. -/
def marks (o : Office) : Step → List Mark
  | .watch s => if listens s then [] else (o.lookout.marks s).map .watch
  | .listen _ => if o.loop.isWaiting && o.lookout.bell.listen.1 then [.began] else []
  | .refresh _ =>
    match o.loop.phase with
    | .waiting due => if o.now < due then [] else [.began]
    | _ => []
  | .list contact _ _ =>
    match o.loop.phase with
    | .listing _ due => if o.now < due then [] else [.listed (o.listing contact)]
    | _ => []
  | .deliver =>
    match (o.step .deliver).1 with
    | some (.update set) => [.told set]
    | _ => []
  | _ => []

/-- The marks of a run, from its beginning to its end. -/
def history (o : Office) (steps : List Step) : List Mark :=
  Muster.history (fun o s => (o.step s).2) marks o steps

/-- The office `o` goes on, leaves marks, and is another office then. -/
inductive Move (o : Office) : List Mark → Office → Prop
  | stay : Move o [] o
  | watch {s : Watch.Step} : listens s = false →
      Move o ((o.lookout.marks s).map .watch) { o with lookout := (o.lookout.step s).2 }
  | ask : Move o [] (o.setBell o.lookout.bell.ring.2)
  /-- The loop has looked for a ring in vain. -/
  | unheard : o.lookout.bell.listen.1 = false → Move o [] (o.setBell o.lookout.bell.listen.2)
  | begin (bell : Bell) (delay : Nat) :
      Move o [.began] { o.setBell bell with loop := o.loop.resolve o.now delay }
  | list {more due : Nat} (contact : Contact) (delay sinkDelay : Nat) :
      o.loop.phase = .listing more due →
      Move o [.listed (o.listing contact)] { o with
        loop := (o.loop.listed more o.now delay sinkDelay (o.listing contact)).2 }
  | deliver {set : AddressSet} {due : Nat} : o.loop.phase = .delivering set due →
      Move o [.told set] { o with loop := o.loop.quieten o.now }
  | rest {due : Nat} : o.loop.phase = .quiet due → Move o [] { o with loop := o.loop.rest o.now }
  | stop : Move o [] { o.setBell o.lookout.bell.leave with loop := o.loop.stop }

/-- Every step is one of the moves, with the marks that belong to it. -/
theorem step_move (o : Office) (s : Step) : Move o (o.marks s) (o.step s).2 := by
  cases s with
  | watch s =>
    simp only [marks, step]
    split
    · exact .stay
    · rename_i hs; exact .watch (Bool.not_eq_true _ ▸ hs)
  | ask => exact .ask
  | listen delay =>
    cases hp : o.loop.phase with
    | waiting due =>
      cases hb : o.lookout.bell.listen.1 with
      | true => simp only [marks, step, hp, hb, Loop.isWaiting]; exact .begin _ delay
      | false => simp only [marks, step, hp, hb, Loop.isWaiting]; exact .unheard hb
    | listing | delivering | quiet | ended =>
      simp only [marks, step, hp, Loop.isWaiting]; exact .stay
  | refresh delay =>
    cases hp : o.loop.phase with
    | waiting due =>
      simp only [marks, step, hp]
      split
      · exact .stay
      · exact .begin _ delay
    | listing | delivering | quiet | ended => simp only [marks, step, hp]; exact .stay
  | list contact delay sinkDelay =>
    cases hp : o.loop.phase with
    | listing more due =>
      simp only [marks, step, hp]
      split
      · exact .stay
      · exact .list contact delay sinkDelay hp
    | waiting | delivering | quiet | ended => simp only [marks, step, hp]; exact .stay
  | deliver =>
    cases hp : o.loop.phase with
    | delivering set due =>
      by_cases hd : o.now < due
      · simp only [marks, step, hp, hd, if_true]; exact .stay
      · simp only [marks, step, hp, hd, if_false]; exact .deliver hp
    | waiting | listing | quiet | ended => simp only [marks, step, hp]; exact .stay
  | rest =>
    cases hp : o.loop.phase with
    | quiet due =>
      simp only [marks, step, hp]
      split
      · exact .stay
      · exact .rest hp
    | waiting | listing | delivering | ended => simp only [marks, step, hp]; exact .stay
  | stop =>
    cases hp : o.loop.phase with
    | waiting | listing | quiet => simp only [marks, step, hp]; exact .stop
    | delivering | ended => simp only [marks, step, hp]; exact .stay

/-- What every move keeps, a run keeps, together with the marks left so far. -/
theorem run_invariant {P : Office → List Mark → Prop}
    (hmove : ∀ {o marks o' log}, Move o marks o' → P o log → P o' (log ++ marks))
    (o : Office) (h : P o []) (steps : List Step) : P (o.run steps) (o.history steps) :=
  Muster.run_invariant (fun o s _ hP => hmove (step_move o s) hP) steps o [] h

end Office
end Muster.Resolver
