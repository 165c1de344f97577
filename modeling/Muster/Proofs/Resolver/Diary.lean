/-
The diary of a resolver: when it has been asked to resolve, and when resolutions and quiet periods have
begun and ended. It depends on no more of the office than its clock, its bell and its loop, the desk;
`Turn` lists all that a step can do to a desk and write down.
-/
import Muster.Proofs.Resolver.Freshness

namespace Muster

namespace Watch.Lookout

theorem goOn_now (l : Lookout) (r : Bool × Loop) : (l.goOn r).2.now = l.now := by
  obtain ⟨rings, loop⟩ := r
  cases rings <;> rfl

theorem mutated_now (l : Lookout) (r : Except Fault Store) : (l.mutated r).now = l.now := by
  cases r <;> rfl

/-- Time passes in ticks alone. -/
theorem now_step (l : Lookout) (s : Step) :
    (∃ ms, s = .tick ms) ∨ (l.step s).2.now = l.now := by
  cases s with
  | tick ms => exact .inl ⟨ms, rfl⟩
  | create key value => exact .inr (mutated_now l _)
  | delete key => exact .inr (mutated_now l _)
  | poll | fail => cases hp : l.loop.phase <;> exact .inr (by simp [step, hp, goOn_now])
  | hear => cases ho : l.loop.outcome? l.store <;> exact .inr (by simp [step, ho, goOn_now])
  | rouse | stop | listen | leave | take => exact .inr rfl

end Watch.Lookout

namespace Resolver

/-! ## Notes -/

/-- What is written down. -/
inductive Note where
  /-- A resolution is asked for: somebody asks, or the lookout rings. -/
  | asked
  | began
  /-- The sink has what there is to tell. -/
  | ended
  /-- The quiet period is over, and a ring is kept or not. -/
  | rested (kept : Bool)
deriving DecidableEq

/-- A note and its time. -/
structure Entry where
  time : Nat
  note : Note
deriving DecidableEq

abbrev Diary := List Entry

def written (now : Nat) : Option Note → Diary
  | none => []
  | some n => [⟨now, n⟩]

/-- A note does not occur. -/
def Lacks (n : Note) (log : Diary) : Prop := ∀ e ∈ log, e.note ≠ n

instance (n : Note) (log : Diary) : Decidable (Lacks n log) :=
  inferInstanceAs (Decidable (∀ e ∈ log, e.note ≠ n))

/-- What is true of each entry and those behind it. -/
def Since (P : Entry → Diary → Prop) (log : Diary) : Prop := ∀ a e b, log = a ++ e :: b → P e b

section Diary

variable {log : Diary} {m : Entry} {n : Note} {P Q : Entry → Diary → Prop}

theorem append_written_none (log : Diary) (now : Nat) : log ++ written now none = log :=
  List.append_nil log

theorem lacks_nil (n : Note) : Lacks n [] := nofun

theorem lacks_concat : Lacks n (log ++ [m]) ↔ Lacks n log ∧ m.note ≠ n := by
  simp [Lacks, or_imp, forall_and]

theorem not_lacks : ¬ Lacks n log ↔ ∃ e ∈ log, e.note = n := by
  simp [Lacks]

theorem since_singleton : Since P [m] ↔ P m [] := by
  refine ⟨fun h => h [] m [] rfl, fun h a e b heq => ?_⟩
  cases a with
  | nil => cases heq; exact h
  | cons x a => cases a <;> cases heq

theorem since_concat : Since P (log ++ [m]) ↔ P m [] ∧ Since (fun e b => P e (b ++ [m])) log := by
  refine ⟨fun h => ⟨h log m [] rfl, fun a e b heq => h a e (b ++ [m]) (by simp [heq])⟩,
    fun ⟨hm, h⟩ a e b heq => ?_⟩
  rcases snoc_split heq with ⟨-, rfl, rfl⟩ | ⟨b', rfl, hlog⟩
  · exact hm
  · exact h a e b' hlog

/-- A note that is added stands behind all others. -/
theorem since_not_lacks (p : Note → Prop) (log : Diary) (t : Nat) (hn : ¬ p n) :
    Since (fun e b => p e.note → ¬ Lacks n b) (log ++ [⟨t, n⟩]) :=
  since_concat.2 ⟨fun h => absurd h hn, fun _ _ _ _ _ hlacks => (lacks_concat.1 hlacks).2 rfl⟩

theorem Since.imp (h : Since P log) (hPQ : ∀ e b, P e b → Q e b) : Since Q log :=
  fun a e b heq => hPQ e b (h a e b heq)

end Diary

/-- What is to be written down when the loop goes from one phase to another. -/
def Phase.turn (kept : Bool) : Phase → Phase → Option Note
  | .waiting _, .listing .. => some .began
  | .listing .., .quiet _ => some .ended
  | .delivering .., .quiet _ => some .ended
  | .quiet _, .waiting _ => some (.rested kept)
  | _, _ => none

namespace Office

/-- A step asks for a resolution. -/
def asks (o : Office) : Step → Bool
  | .watch s => !listens s && decide (.rang ∈ o.lookout.marks s)
  | .ask => true
  | _ => false

/-- What is written down of a step. -/
def note (o : Office) (s : Step) : Option Note :=
  if o.asks s then some .asked
  else o.loop.phase.turn o.lookout.bell.stored (o.step s).2.loop.phase

/-- The diary opens as if a quiet period had ended, with the ring that is kept then. -/
def opening (o : Office) : Entry := ⟨o.now, .rested o.lookout.bell.stored⟩

/-- What is written down in a run. -/
def entries (o : Office) (steps : List Step) : Diary :=
  Muster.history (fun o s => (o.step s).2) (fun o s => written o.now (o.note s)) o steps

/-- The diary of a run. -/
def diary (o : Office) (steps : List Step) : Diary := o.opening :: o.entries steps

end Office

/-! ## What a step does -/

/-- What the diary depends on. -/
structure Desk where
  now : Nat
  bell : Bell
  loop : Loop

def Office.desk (o : Office) : Desk := { now := o.now, bell := o.lookout.bell, loop := o.loop }

/-- A step leads from a desk to another, and is written down. -/
inductive Turn (d : Desk) : Step → Option Note → Desk → Prop
  | stay {s : Step} : Turn d s none d
  | tick (ms : Nat) : Turn d (.watch (.tick ms)) none { d with now := d.now + ms }
  | ring {s : Step} : Turn d s (some .asked) { d with bell := d.bell.ring.2 }
  | miss {due : Nat} (delay : Nat) : d.loop.phase = .waiting due → d.bell.listen.1 = false →
      Turn d (.listen delay) none { d with bell := d.bell.listen.2 }
  | hear {due : Nat} (delay : Nat) : d.loop.phase = .waiting due → d.bell.listen.1 = true →
      Turn d (.listen delay) (some .began)
        { d with bell := d.bell.listen.2, loop := d.loop.resolve d.now delay }
  | refresh {due : Nat} (delay : Nat) : d.loop.phase = .waiting due → due ≤ d.now →
      Turn d (.refresh delay) (some .began)
        { d with bell := d.bell.leave, loop := d.loop.resolve d.now delay }
  | retry {more due : Nat} (contact : Contact) (delay sinkDelay : Nat) :
      d.loop.phase = .listing (more + 1) due → due ≤ d.now →
      Turn d (.list contact delay sinkDelay) none
        { d with loop := { d.loop with phase := .listing more (d.now + delay) } }
  | found {more due : Nat} (contact : Contact) (delay sinkDelay : Nat) (set : AddressSet) :
      d.loop.phase = .listing more due → due ≤ d.now →
      Turn d (.list contact delay sinkDelay) none
        { d with loop := { d.loop with phase := .delivering set (d.now + sinkDelay) } }
  | fail {more due : Nat} (contact : Contact) (delay sinkDelay : Nat) :
      d.loop.phase = .listing more due → due ≤ d.now →
      Turn d (.list contact delay sinkDelay) (some .ended) { d with loop := d.loop.quieten d.now }
  | deliver {set : AddressSet} {due : Nat} : d.loop.phase = .delivering set due → due ≤ d.now →
      Turn d .deliver (some .ended) { d with loop := d.loop.quieten d.now }
  | rest {due : Nat} : d.loop.phase = .quiet due → due ≤ d.now →
      Turn d .rest (some (.rested d.bell.stored)) { d with loop := d.loop.rest d.now }
  | stop : Turn d .stop none { d with bell := d.bell.leave, loop := d.loop.stop }

theorem Phase.turn_self (kept : Bool) (p : Phase) : p.turn kept p = none := by
  cases p <;> rfl

variable {o o' : Office} {s : Step}

/-- A step of the loop is written down as its change of phase. -/
theorem Office.turn_of (hasks : o.asks s = false) (hstep : (o.step s).2 = o')
    (h : Turn o.desk s (o.loop.phase.turn o.lookout.bell.stored o'.loop.phase) o'.desk) :
    Turn o.desk s (o.note s) (o.step s).2.desk := by
  rw [Office.note, hasks, hstep]
  exact h

theorem Office.turn_stay (hasks : o.asks s = false) (hstep : (o.step s).2 = o) :
    Turn o.desk s (o.note s) (o.step s).2.desk := by
  refine Office.turn_of hasks hstep ?_
  rw [Phase.turn_self]
  exact .stay

/-- The lookout touches the clock and the bell alone. -/
theorem Office.watch_turn (o : Office) (s : Watch.Step) :
    Turn o.desk (.watch s) (o.note (.watch s)) (o.step (.watch s)).2.desk := by
  cases hs : listens s with
  | true => exact Office.turn_stay (by simp [asks, hs]) (by simp [step, hs])
  | false =>
    have hstep : (o.step (.watch s)).2 = { o with lookout := (o.lookout.step s).2 } := by
      simp [step, hs]
    have hdesk {bell : Bell} (hbell : (o.lookout.step s).2.bell = bell)
        (hnow : (o.lookout.step s).2.now = o.now) :
        ({ o with lookout := (o.lookout.step s).2 } : Office).desk = { o.desk with bell } := by
      rw [desk, now, hnow, hbell]
      rfl
    rcases o.lookout.bell_step hs with ⟨hr, hbell⟩ | ⟨hr, hbell⟩
    · have hnow : (o.lookout.step s).2.now = o.now :=
        (o.lookout.now_step s).resolve_left (by rintro ⟨ms, rfl⟩; exact absurd hr List.not_mem_nil)
      rw [note, show o.asks (.watch s) = true by simp [asks, hs, hr], hstep, hdesk hbell hnow]
      exact .ring
    · refine Office.turn_of (by simp [asks, hr]) hstep ?_
      rw [Phase.turn_self]
      rcases o.lookout.now_step s with ⟨ms, rfl⟩ | hnow
      · exact .tick ms
      · rw [hdesk hbell hnow]
        exact .stay

/-- All that a step can do. -/
theorem Office.step_turn (o : Office) (s : Step) : Turn o.desk s (o.note s) (o.step s).2.desk := by
  cases s with
  | watch s => exact o.watch_turn s
  | ask => exact .ring
  | listen delay =>
    cases hp : o.loop.phase with
    | waiting due =>
      cases hb : o.lookout.bell.listen.1 with
      | true =>
        refine Office.turn_of rfl (by simp only [step, hp, hb]; rfl) ?_
        rw [hp]
        exact .hear delay hp hb
      | false =>
        refine Office.turn_of rfl (by simp only [step, hp, hb]; rfl) ?_
        show Turn _ _ (o.loop.phase.turn _ o.loop.phase) _
        rw [Phase.turn_self]
        exact .miss delay hp hb
    | listing | delivering | quiet | ended =>
      exact Office.turn_stay rfl (by simp only [step, hp])
  | refresh delay =>
    cases hp : o.loop.phase with
    | waiting due =>
      by_cases hdue : o.now < due
      · exact Office.turn_stay rfl (by simp only [step, hp, hdue, if_true])
      · refine Office.turn_of rfl (by simp only [step, hp, hdue, if_false]; rfl) ?_
        rw [hp]
        exact .refresh delay hp (Nat.not_lt.1 hdue)
    | listing | delivering | quiet | ended =>
      exact Office.turn_stay rfl (by simp only [step, hp])
  | list contact delay sinkDelay =>
    cases hp : o.loop.phase with
    | listing more due =>
      by_cases hdue : o.now < due
      · exact Office.turn_stay rfl (by simp only [step, hp, hdue, if_true])
      · have hle : due ≤ o.now := Nat.not_lt.1 hdue
        have hstep : (o.step (.list contact delay sinkDelay)).2 = { o with
            loop := (o.loop.listed more o.now delay sinkDelay (o.listing contact)).2 } := by
          simp only [step, hp, hdue, if_false]
        refine Office.turn_of rfl hstep ?_
        rw [hp]
        cases o.listing contact with
        | found set => exact .found contact delay sinkDelay set hp hle
        | broken => exact .fail contact delay sinkDelay hp hle
        | fault f =>
          cases more with
          | zero => exact .fail contact delay sinkDelay hp hle
          | succ more => exact .retry contact delay sinkDelay hp hle
    | waiting | delivering | quiet | ended =>
      exact Office.turn_stay rfl (by simp only [step, hp])
  | deliver =>
    cases hp : o.loop.phase with
    | delivering set due =>
      by_cases hdue : o.now < due
      · exact Office.turn_stay rfl (by simp only [step, hp, hdue, if_true])
      · refine Office.turn_of rfl (by simp only [step, hp, hdue, if_false]; rfl) ?_
        rw [hp]
        exact .deliver hp (Nat.not_lt.1 hdue)
    | waiting | listing | quiet | ended =>
      exact Office.turn_stay rfl (by simp only [step, hp])
  | rest =>
    cases hp : o.loop.phase with
    | quiet due =>
      by_cases hdue : o.now < due
      · exact Office.turn_stay rfl (by simp only [step, hp, hdue, if_true])
      · refine Office.turn_of rfl (by simp only [step, hp, hdue, if_false]; rfl) ?_
        rw [hp]
        exact .rest hp (Nat.not_lt.1 hdue)
    | waiting | listing | delivering | ended =>
      exact Office.turn_stay rfl (by simp only [step, hp])
  | stop =>
    cases hp : o.loop.phase with
    | waiting | listing | quiet =>
      refine Office.turn_of rfl (by simp only [step, hp]; rfl) ?_
      rw [hp]
      exact .stop
    | delivering | ended => exact Office.turn_stay rfl (by simp only [step, hp])

/-! ## Runs -/

/-- What every step keeps, a run keeps, together with the diary. -/
theorem Office.run_desk {P : Desk → Diary → Prop}
    (hturn : ∀ {d s note d' log}, Turn d s note d' → P d log → P d' (log ++ written d.now note))
    (o : Office) (h : P o.desk [o.opening]) (steps : List Step) :
    P (o.run steps).desk (o.diary steps) :=
  Muster.run_invariant (P := fun o log => P o.desk log)
    (fun o s _ hP => hturn (o.step_turn s) hP) steps o [o.opening] h

theorem Office.diary_append (o : Office) (before after : List Step) :
    o.diary (before ++ after) = o.diary before ++ (o.run before).entries after := by
  rw [diary, entries, Muster.history_append]
  rfl

theorem Office.diary_concat (o : Office) (steps : List Step) (s : Step) :
    o.diary (steps ++ [s]) =
      o.diary steps ++ written (o.run steps).now ((o.run steps).note s) := by
  rw [diary_append]
  exact congrArg (o.diary steps ++ ·) (List.append_nil _)

theorem Office.run_concat (o : Office) (steps : List Step) (s : Step) :
    o.run (steps ++ [s]) = ((o.run steps).step s).2 :=
  List.foldl_append

/-- Each entry but the opening is one of a step, and before it stands the diary up to that step. -/
theorem Office.diary_cut {o : Office} {steps : List Step} {a b : Diary} {e : Entry}
    (h : o.diary steps = a ++ e :: b) : a = [] ∧ e = o.opening ∨
      ∃ before s after, steps = before ++ s :: after ∧ a = o.diary before ∧
        e.time = (o.run before).now ∧ (o.run before).note s = some e.note := by
  induction steps using List.reverseRecOn generalizing b with
  | nil =>
    cases a with
    | nil => cases h; exact .inl ⟨rfl, rfl⟩
    | cons x a => cases a <;> cases h
  | append_singleton steps s ih =>
    have older {b' : Diary} (h : o.diary steps = a ++ e :: b') : a = [] ∧ e = o.opening ∨
        ∃ before t after, steps ++ [s] = before ++ t :: after ∧ a = o.diary before ∧
          e.time = (o.run before).now ∧ (o.run before).note t = some e.note := by
      refine (ih h).imp_right ?_
      rintro ⟨before, t, after, rfl, rest⟩
      exact ⟨before, t, after ++ [s], by simp, rest⟩
    rw [diary_concat] at h
    cases hn : (o.run steps).note s with
    | none =>
      rw [hn] at h
      exact older ((List.append_nil _).symm.trans h)
    | some n =>
      rw [hn] at h
      rcases snoc_split h with ⟨rfl, rfl, rfl⟩ | ⟨b', -, h⟩
      · exact .inr ⟨steps, s, [], rfl, rfl, rfl, hn⟩
      · exact older h

/-! ## Promptness -/

/-- For so long the loop has nothing to do: it waits and listens, or what it waits for is not due
before. -/
def Desk.Idle (d : Desk) (ms : Nat) : Prop :=
  match d.loop.phase with
  | .waiting due => d.bell.waiting = true ∧ d.now + ms ≤ due
  | .listing _ due | .delivering _ due | .quiet due => d.now + ms ≤ due
  | .ended => True

/-- Time passes only while the loop has nothing to do, and the loop is not stopped. -/
def Desk.Timely (d : Desk) : Step → Prop
  | .watch (.tick ms) => d.Idle ms
  | .stop => False
  | _ => True

/-- A run in which the loop does everything when it is due. -/
def Office.Prompt (o : Office) : List Step → Prop
  | [] => True
  | s :: steps => o.desk.Timely s ∧ (o.step s).2.Prompt steps

instance (d : Desk) (ms : Nat) : Decidable (d.Idle ms) := by
  unfold Desk.Idle
  split <;> infer_instance

instance (d : Desk) (s : Step) : Decidable (d.Timely s) := by
  unfold Desk.Timely
  split <;> infer_instance

instance Office.decidablePrompt : (o : Office) → (steps : List Step) → Decidable (o.Prompt steps)
  | _, [] => .isTrue trivial
  | o, s :: steps =>
    have := decidablePrompt (o.step s).2 steps
    inferInstanceAs (Decidable (o.desk.Timely s ∧ (o.step s).2.Prompt steps))

theorem Office.Prompt.left {o : Office} {before after : List Step}
    (h : o.Prompt (before ++ after)) : o.Prompt before := by
  induction before generalizing o with
  | nil => trivial
  | cons s before ih => exact ⟨h.1, ih h.2⟩

theorem Office.Prompt.append {o : Office} {before after : List Step} (h : o.Prompt before)
    (hafter : (o.run before).Prompt after) : o.Prompt (before ++ after) := by
  induction before generalizing o with
  | nil => exact hafter
  | cons s before ih => exact ⟨h.1, ih h.2 hafter⟩

theorem Office.Prompt.timely {o : Office} {before after : List Step} {s : Step}
    (h : o.Prompt (before ++ s :: after)) : (o.run before).desk.Timely s := by
  induction before generalizing o with
  | nil => exact h.1
  | cons t before ih => exact ih h.2

/-- The induction over a prompt run whose steps are all of one kind. -/
theorem Office.Prompt.run_desk {P : Desk → Diary → Prop} {allowed : Step → Prop}
    (hturn : ∀ {d s note d' log}, Turn d s note d' → d.Timely s → allowed s → P d log →
      P d' (log ++ written d.now note))
    {o : Office} {steps : List Step} (hprompt : o.Prompt steps) (hall : ∀ s ∈ steps, allowed s)
    (h : P o.desk [o.opening]) : P (o.run steps).desk (o.diary steps) := by
  induction steps using List.reverseRecOn with
  | nil => exact h
  | append_singleton steps s ih =>
    rw [diary_concat, run_concat]
    exact hturn ((o.run steps).step_turn s) hprompt.timely
      (hall s (List.mem_append_right _ (List.mem_singleton.2 rfl)))
      (ih hprompt.left fun t ht => hall t (List.mem_append_left _ ht))

end Resolver
end Muster
