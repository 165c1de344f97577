/-
Which shutdown signals a trigger reaches: the handles of the same signal, those of the signals below it,
and no others. Where a signal stands is read off the steps that gave the handles out; the cells of a signal
agree with it, since every new signal has a cell of its own. Main statement: `mem_cells_iff`.
-/
import Mathlib.Data.List.Induction
import Muster.Proofs.History
import Muster.Vigil

namespace Muster.Vigil

/-! ## Where handles come from -/

/-- How a handle was given out. -/
inductive Origin where
  | new
  | child (parent : Nat)
  | clone (original : Nat)
deriving DecidableEq, Repr

/-- What a step gives out when there are so many handles already. -/
def Act.origin? (handles : Nat) : Act → Option Origin
  | .new => some .new
  | .child parent => if parent < handles then some (.child parent) else none
  | .clone original => if original < handles then some (.clone original) else none
  | _ => none

/-- The origins of all handles that several steps give out, in their order. -/
def origins (acts : List Act) : List Origin :=
  acts.foldl (fun made a => made ++ (a.origin? made.length).toList) []

/-- A trigger of handle `i` is one of handle `j`: both are handles of one signal, or the signal of
`j` stands below that of `i`. -/
inductive Reaches (made : List Origin) (i : Nat) : Nat → Prop
  | self : Reaches made i i
  | child {j k : Nat} : Reaches made i j → made[k]? = some (.child j) → Reaches made i k
  | clone {j k : Nat} : Reaches made i j → made[k]? = some (.clone j) → Reaches made i k
  | original {j k : Nat} : Reaches made i j → made[j]? = some (.clone k) → Reaches made i k

/-- A handle is triggered by one of several steps. -/
def Triggered (acts : List Act) (i : Nat) : Prop :=
  ∃ before since, acts = before ++ .trigger i :: since ∧ i < (origins before).length

theorem Reaches.trans {made : List Origin} {i j k : Nat} (h : Reaches made i j)
    (h' : Reaches made j k) : Reaches made i k := by
  induction h' with
  | self => exact h
  | child _ hk ih => exact ih.child hk
  | clone _ hk ih => exact ih.clone hk
  | original _ hj ih => exact ih.original hj

theorem origins_concat (acts : List Act) (a : Act) :
    origins (acts ++ [a]) = origins acts ++ (a.origin? (origins acts).length).toList := by
  unfold origins
  rw [List.foldl_append]
  rfl

theorem run_concat (v : Vigil) (acts : List Act) (a : Act) :
    v.run (acts ++ [a]) = (v.run acts).act a :=
  List.foldl_append

/-! ## Cells -/

/-- The handle at this place is the first of its signal. -/
def Founding (made : List Origin) (k : Nat) : Prop :=
  made[k]? = some .new ∨ ∃ p, made[k]? = some (.child p)

/-- What is given out agrees with where it comes from: a new signal has a cell of its own, the cells
above it are those of its parent, and a clone has the cells of its original. -/
structure Kindred (made : List Origin) (v : Vigil) : Prop where
  length : made.length = v.handles.length
  bound : ∀ g ∈ v.handles, ∀ c ∈ g.cells, c < v.signals.count
  new : ∀ k : Nat, made[k]? = some .new → ∃ c, v.handles[k]? = some { cell := c }
  child : ∀ k p : Nat, made[k]? = some (.child p) → p < k ∧
    ∃ c g, v.handles[p]? = some g ∧ v.handles[k]? = some { cell := c, above := g.cells }
  clone : ∀ k p : Nat, made[k]? = some (.clone p) → p < k ∧ v.handles[k]? = v.handles[p]?
  own : ∀ (k l : Nat) (g h : Signal), v.handles[k]? = some g → v.handles[l]? = some h →
    Founding made k → Founding made l → g.cell = h.cell → k = l

theorem kindred_empty : Kindred [] {} := by
  refine ⟨rfl, ?_, ?_, ?_, ?_, ?_⟩ <;> simp

variable {made : List Origin} {v : Vigil}

/-- What stands at a place of a list that has grown by one. -/
theorem getElem?_concat_cases {α : Type} {l : List α} {a b : α} {k : Nat}
    (h : (l ++ [a])[k]? = some b) : l[k]? = some b ∨ k = l.length ∧ b = a := by
  rw [List.getElem?_append] at h
  split at h
  · exact .inl h
  · have hk : k - l.length < [a].length := (List.getElem?_eq_some_iff.1 h).1
    rw [List.length_singleton] at hk
    refine .inr ⟨by omega, ?_⟩
    rw [show k - l.length = 0 by omega] at h
    exact (Option.some.inj h).symm

theorem getElem?_concat_old {α : Type} {l : List α} {a b : α} {k : Nat} (h : l[k]? = some b) :
    (l ++ [a])[k]? = some b := by
  rw [List.getElem?_append_left (List.getElem?_eq_some_iff.1 h).1, h]

theorem getElem?_concat_new {α : Type} {l : List α} {a : α} {k : Nat} (h : k = l.length) :
    (l ++ [a])[k]? = some a := by
  rw [h, List.getElem?_concat_length]

/-- Whoever has a handle can tell where it comes from. -/
theorem Kindred.origin (h : Kindred made v) {k : Nat} {g : Signal} (hk : v.handles[k]? = some g) :
    ∃ a, made[k]? = some a := by
  have hlt := (List.getElem?_eq_some_iff.1 hk).1
  exact ⟨_, List.getElem?_eq_getElem (h.length ▸ hlt)⟩

/-- Every handle is one of a signal whose first handle it reaches, and is reached by. -/
theorem Kindred.founder (h : Kindred made v) (j : Nat) {g : Signal} (hj : v.handles[j]? = some g) :
    ∃ f g', v.handles[f]? = some g' ∧ Founding made f ∧ g'.cell = g.cell ∧
      Reaches made j f ∧ Reaches made f j := by
  induction j using Nat.strongRecOn with
  | ind j ih =>
    obtain ⟨a, ha⟩ := h.origin hj
    cases a with
    | new => exact ⟨j, g, hj, .inl ha, rfl, .self, .self⟩
    | child p => exact ⟨j, g, hj, .inr ⟨p, ha⟩, rfl, .self, .self⟩
    | clone p =>
      obtain ⟨hlt, hsame⟩ := h.clone j p ha
      obtain ⟨f, g', hg', hf, hcell, hto, hfrom⟩ := ih p hlt (hsame ▸ hj)
      exact ⟨f, g', hg', hf, hcell, (Reaches.self.original ha).trans hto, hfrom.clone ha⟩

/-- Handles with the same cell are handles of one signal. -/
theorem Kindred.reaches_of_cell (h : Kindred made v) {i j : Nat} {g k : Signal}
    (hi : v.handles[i]? = some g) (hj : v.handles[j]? = some k) (hcell : g.cell = k.cell) :
    Reaches made i j := by
  obtain ⟨f, g', hg', hf, hcell', hto, -⟩ := h.founder i hi
  obtain ⟨f', k', hk', hf', hcell'', -, hfrom⟩ := h.founder j hj
  obtain rfl : f = f' :=
    h.own f f' g' k' hg' hk' hf hf' (hcell'.trans (hcell.trans hcell''.symm))
  exact hto.trans hfrom

/-- The cells of a signal are those of the signals whose trigger reaches it. -/
theorem Kindred.mem_cells_iff (h : Kindred made v) {i : Nat} {g : Signal} (hi : v.handles[i]? = some g)
    (j : Nat) {k : Signal} (hj : v.handles[j]? = some k) : g.cell ∈ k.cells ↔ Reaches made i j := by
  constructor
  · intro hmem
    induction j using Nat.strongRecOn generalizing k with
    | ind j ih =>
      obtain ⟨a, ha⟩ := h.origin hj
      cases a with
      | new =>
        obtain ⟨c, hc⟩ := h.new j ha
        obtain rfl : k = { cell := c } := Option.some.inj (hj.symm.trans hc)
        exact h.reaches_of_cell hi hj (List.mem_singleton.1 hmem)
      | child p =>
        obtain ⟨hlt, c, parent, hp, hc⟩ := h.child j p ha
        obtain rfl : k = { cell := c, above := parent.cells } := Option.some.inj (hj.symm.trans hc)
        rcases List.mem_cons.1 hmem with hown | habove
        · exact h.reaches_of_cell hi hj hown
        · exact (ih p hlt hp habove).child ha
      | clone p =>
        obtain ⟨hlt, hsame⟩ := h.clone j p ha
        exact (ih p hlt (hsame ▸ hj) hmem).clone ha
  · intro hreach
    induction hreach generalizing k with
    | self =>
      obtain rfl : k = g := Option.some.inj (hj.symm.trans hi)
      exact List.mem_cons_self
    | @child p j _ hmade ih =>
      obtain ⟨-, c, parent, hp, hc⟩ := h.child j p hmade
      obtain rfl : k = { cell := c, above := parent.cells } := Option.some.inj (hj.symm.trans hc)
      exact List.mem_cons_of_mem c (ih hp)
    | @clone p j _ hmade ih => exact ih ((h.clone j p hmade).2 ▸ hj)
    | @original p j _ hmade ih => exact ih ((h.clone p j hmade).2.trans hj)

/-! ## Steps -/

theorem Kindred.congr (h : Kindred made v) {v' : Vigil} (hhandles : v'.handles = v.handles)
    (hcount : v'.signals.count = v.signals.count) : Kindred made v' := by
  obtain ⟨signals, handles, waits⟩ := v'
  subst hhandles
  exact ⟨h.length, by rw [hcount]; exact h.bound, h.new, h.child, h.clone, h.own⟩

theorem Founding.lt {k : Nat} (h : Founding made k) : k < made.length := by
  rcases h with h | ⟨p, h⟩ <;> exact (List.getElem?_eq_some_iff.1 h).1

theorem founding_concat {a : Origin} {k : Nat} (h : Founding (made ++ [a]) k) :
    Founding made k ∨ k = made.length ∧ ∀ p, a ≠ .clone p := by
  rcases h with h | ⟨p, h⟩
  · rcases getElem?_concat_cases h with hold | ⟨hlast, rfl⟩
    · exact .inl (.inl hold)
    · exact .inr ⟨hlast, nofun⟩
  · rcases getElem?_concat_cases h with hold | ⟨hlast, rfl⟩
    · exact .inl (.inr ⟨p, hold⟩)
    · exact .inr ⟨hlast, nofun⟩

/-- A handle is given out that agrees with where it comes from. -/
theorem Kindred.give (h : Kindred made v) {a : Origin} {g : Signal} {signals : Signals}
    (hcount : v.signals.count ≤ signals.count) (hbound : ∀ c ∈ g.cells, c < signals.count)
    (hnew : a = .new → ∃ c, g = { cell := c })
    (hchild : ∀ p, a = .child p → ∃ c k, v.handles[p]? = some k ∧ g = { cell := c, above := k.cells })
    (hclone : ∀ p, a = .clone p → v.handles[p]? = some g)
    (hown : (∀ p, a ≠ .clone p) → g.cell = v.signals.count) :
    Kindred (made ++ [a]) (v.give (g, signals)) := by
  have hlength := h.length
  have hplace {k : Nat} {f : Signal} (hf : v.handles[k]? = some f) : k < made.length :=
    hlength ▸ (List.getElem?_eq_some_iff.1 hf).1
  have hlast {k : Nat} (hk : k = made.length) : (v.handles ++ [g])[k]? = some g :=
    getElem?_concat_new (hk.trans hlength)
  -- the cell of a new signal has not been given out before
  have hfresh {k : Nat} {f : Signal} (hf : v.handles[k]? = some f) (ha : ∀ p, a ≠ .clone p) :
      f.cell ≠ g.cell := by
    have hlt := h.bound f (List.mem_of_getElem? hf) f.cell List.mem_cons_self
    rw [hown ha]
    exact Nat.ne_of_lt hlt
  -- a first handle is an old one, or the one that is given out
  have hfirst {k : Nat} {f : Signal} (hf : (v.handles ++ [g])[k]? = some f)
      (hk : Founding (made ++ [a]) k) : v.handles[k]? = some f ∧ Founding made k ∨
        k = made.length ∧ f = g ∧ ∀ p, a ≠ .clone p := by
    rcases getElem?_concat_cases hf with hf | ⟨hend, hg⟩ <;>
      rcases founding_concat hk with hk | ⟨hend', ha⟩
    · exact .inl ⟨hf, hk⟩
    · exact absurd hend' (Nat.ne_of_lt (hplace hf))
    · exact absurd (hend.trans hlength.symm) (Nat.ne_of_lt hk.lt)
    · exact .inr ⟨hend', hg, ha⟩
  refine ⟨by simp [Vigil.give, hlength], fun k hk c hc => ?_, fun k hk => ?_, fun k p hk => ?_,
    fun k p hk => ?_, fun k l f f' hf hf' hk hl hcell => ?_⟩
  · rcases List.mem_append.1 hk with hk | hk
    · exact Nat.lt_of_lt_of_le (h.bound k hk c hc) hcount
    · obtain rfl := List.mem_singleton.1 hk
      exact hbound c hc
  · rcases getElem?_concat_cases hk with hold | ⟨hend, rfl⟩
    · obtain ⟨c, hc⟩ := h.new k hold
      exact ⟨c, getElem?_concat_old hc⟩
    · obtain ⟨c, rfl⟩ := hnew rfl
      exact ⟨c, hlast hend⟩
  · rcases getElem?_concat_cases hk with hold | ⟨hend, rfl⟩
    · obtain ⟨hlt, c, parent, hp, hc⟩ := h.child k p hold
      exact ⟨hlt, c, parent, getElem?_concat_old hp, getElem?_concat_old hc⟩
    · obtain ⟨c, parent, hp, rfl⟩ := hchild p rfl
      exact ⟨hend ▸ hplace hp, c, parent, getElem?_concat_old hp, hlast hend⟩
  · rcases getElem?_concat_cases hk with hold | ⟨hend, rfl⟩
    · obtain ⟨hlt, hsame⟩ := h.clone k p hold
      have hp := List.getElem?_eq_getElem (l := v.handles)
        (hlength ▸ (List.getElem?_eq_some_iff.1 hold).1)
      exact ⟨hlt, (getElem?_concat_old hp).trans (getElem?_concat_old (hsame ▸ hp)).symm⟩
    · have hp := hclone p rfl
      exact ⟨hend ▸ hplace hp, (hlast hend).trans (getElem?_concat_old hp).symm⟩
  · rcases hfirst hf hk with ⟨hold, hk⟩ | ⟨rfl, rfl, ha⟩ <;>
      rcases hfirst hf' hl with ⟨hold', hl⟩ | ⟨rfl, rfl, hb⟩
    · exact h.own k l f f' hold hold' hk hl hcell
    · exact absurd hcell (hfresh hold hb)
    · exact absurd hcell.symm (hfresh hold' ha)
    · rfl

theorem Kindred.act (h : Kindred made v) (a : Act) :
    Kindred (made ++ (a.origin? made.length).toList) (v.act a) := by
  cases a with
  | new =>
    refine h.give (Nat.le_succ _) (fun c hc => ?_) (fun _ => ⟨_, rfl⟩) nofun nofun fun _ => rfl
    rw [List.mem_singleton.1 hc]
    exact Nat.lt_succ_self _
  | child p =>
    simp only [Vigil.act, withHandle, Act.origin?]
    cases hp : v.handles[p]? with
    | none =>
      rw [if_neg (by rw [h.length]; exact Nat.not_lt.2 (List.getElem?_eq_none_iff.1 hp))]
      rwa [Option.toList_none, List.append_nil]
    | some g =>
      rw [if_pos (by rw [h.length]; exact (List.getElem?_eq_some_iff.1 hp).1)]
      refine h.give (Nat.le_succ _) (fun c hc => ?_) nofun (fun q hq => ?_) nofun fun _ => rfl
      · rcases List.mem_cons.1 hc with rfl | hc
        · exact Nat.lt_succ_self _
        · exact Nat.lt_succ_of_lt (h.bound g (List.mem_of_getElem? hp) c hc)
      · cases hq
        exact ⟨_, g, hp, rfl⟩
  | clone p =>
    simp only [Vigil.act, withHandle, Act.origin?]
    cases hp : v.handles[p]? with
    | none =>
      rw [if_neg (by rw [h.length]; exact Nat.not_lt.2 (List.getElem?_eq_none_iff.1 hp))]
      rwa [Option.toList_none, List.append_nil]
    | some g =>
      rw [if_pos (by rw [h.length]; exact (List.getElem?_eq_some_iff.1 hp).1)]
      refine h.give (Nat.le_refl _) (h.bound g (List.mem_of_getElem? hp)) nofun nofun (fun q hq => ?_)
        fun hnot => absurd rfl (hnot p)
      cases hq
      exact hp
  | trigger i =>
    simp only [Vigil.act, withHandle, Act.origin?, Option.toList_none, List.append_nil]
    cases v.handles[i]? with
    | none => exact h
    | some g => exact h.congr rfl rfl
  | await i =>
    simp only [Vigil.act, withHandle, Act.origin?, Option.toList_none, List.append_nil]
    cases v.handles[i]? with
    | none => exact h
    | some g => exact h.congr rfl rfl
  | look i =>
    simp only [Vigil.act, Act.origin?, Option.toList_none, List.append_nil]
    exact h.congr rfl rfl

theorem run_kindred (acts : List Act) : Kindred (origins acts) (({} : Vigil).run acts) := by
  induction acts using List.reverseRecOn with
  | nil => exact kindred_empty
  | append_singleton acts a ih =>
    rw [origins_concat, run_concat]
    exact ih.act a

/-! ## Triggers -/

theorem isTriggered_iff {s : Signals} {g : Signal} :
    s.isTriggered g = true ↔ ∃ c ∈ g.cells, c ∈ s.fired := by
  unfold Signals.isTriggered Signal.cells
  simp

theorem triggered_concat {acts : List Act} {a : Act} {i : Nat} :
    Triggered (acts ++ [a]) i ↔ Triggered acts i ∨ a = .trigger i ∧ i < (origins acts).length := by
  constructor
  · rintro ⟨before, since, heq, hlt⟩
    rcases snoc_split heq with ⟨rfl, rfl, -⟩ | ⟨since', rfl, rfl⟩
    · exact .inr ⟨rfl, hlt⟩
    · exact .inl ⟨before, since', rfl, hlt⟩
  · rintro (⟨before, since, rfl, hlt⟩ | ⟨rfl, hlt⟩)
    · exact ⟨before, since ++ [a], by simp, hlt⟩
    · exact ⟨acts, [], rfl, hlt⟩

theorem Triggered.lt {acts : List Act} {i : Nat} (h : Triggered acts i) :
    i < (origins acts).length := by
  induction acts using List.reverseRecOn with
  | nil =>
    obtain ⟨before, since, heq, -⟩ := h
    simp at heq
  | append_singleton acts a ih =>
    have hold : i < (origins acts).length := (triggered_concat.1 h).elim ih And.right
    rw [origins_concat, List.length_append]
    exact Nat.lt_add_right _ hold

/-- Handles that have been given out keep their signals. -/
theorem handle_act (v : Vigil) (a : Act) {i : Nat} {g : Signal} (h : v.handles[i]? = some g) :
    (v.act a).handles[i]? = some g := by
  cases a with
  | new => exact getElem?_concat_old h
  | child p =>
    simp only [act, withHandle]
    split
    · exact getElem?_concat_old h
    · exact h
  | clone p =>
    simp only [act, withHandle]
    split
    · exact getElem?_concat_old h
    · exact h
  | trigger p | await p =>
    simp only [act, withHandle]
    split <;> exact h
  | look p => exact h

/-- What a step triggers. -/
theorem fired_act (v : Vigil) (a : Act) (c : Nat) : c ∈ (v.act a).signals.fired ↔
    c ∈ v.signals.fired ∨ ∃ i g, a = .trigger i ∧ v.handles[i]? = some g ∧ g.cell = c := by
  cases a with
  | new | look => simp [act, give, Signals.root]
  | child p =>
    simp only [act, withHandle]
    split <;> simp [give, Signals.child]
  | clone p =>
    simp only [act, withHandle]
    split <;> simp [give]
  | await p =>
    simp only [act, withHandle]
    split <;> simp
  | trigger i =>
    simp only [act, withHandle, Act.trigger.injEq]
    cases hi : v.handles[i]? with
    | none => simp [hi]
    | some g => simp [Signals.trigger, hi, or_comm, eq_comm]

/-- The cells that have been triggered are those of the handles that have been. -/
theorem mem_fired_iff (acts : List Act) (c : Nat) : c ∈ (({} : Vigil).run acts).signals.fired ↔
    ∃ i g, Triggered acts i ∧ (({} : Vigil).run acts).handles[i]? = some g ∧ g.cell = c := by
  induction acts using List.reverseRecOn with
  | nil => simp [run]
  | append_singleton acts a ih =>
    have hkin := run_kindred acts
    rw [run_concat, fired_act, ih]
    constructor
    · rintro (⟨i, g, hi, hg, rfl⟩ | ⟨i, g, rfl, hg, rfl⟩)
      · exact ⟨i, g, triggered_concat.2 (.inl hi), handle_act _ a hg, rfl⟩
      · have hlt := (List.getElem?_eq_some_iff.1 hg).1
        exact ⟨i, g, triggered_concat.2 (.inr ⟨rfl, hkin.length ▸ hlt⟩), handle_act _ _ hg, rfl⟩
    · rintro ⟨i, g, hi, hg, rfl⟩
      have hlt : i < (origins acts).length := (triggered_concat.1 hi).elim Triggered.lt And.right
      have hold := List.getElem?_eq_getElem (hkin.length ▸ hlt)
      obtain rfl := Option.some.inj ((handle_act _ a hold).symm.trans hg)
      exact (triggered_concat.1 hi).imp (fun hi => ⟨i, _, hi, hold, rfl⟩) fun ha =>
        ⟨i, _, ha.1, hold, rfl⟩

/-- A signal counts as triggered exactly if one has been that reaches it. -/
theorem isTriggered_handle_iff (acts : List Act) {j : Nat} {g : Signal}
    (hj : (({} : Vigil).run acts).handles[j]? = some g) :
    (({} : Vigil).run acts).signals.isTriggered g = true ↔
      ∃ i, Triggered acts i ∧ Reaches (origins acts) i j := by
  have hkin := run_kindred acts
  rw [isTriggered_iff]
  constructor
  · rintro ⟨c, hc, hfired⟩
    obtain ⟨i, f, hi, hf, rfl⟩ := (mem_fired_iff acts c).1 hfired
    exact ⟨i, hi, (hkin.mem_cells_iff hf j hj).1 hc⟩
  · rintro ⟨i, hi, hreach⟩
    have hf := List.getElem?_eq_getElem (hkin.length ▸ hi.lt)
    exact ⟨_, (hkin.mem_cells_iff hf j hj).2 hreach, (mem_fired_iff acts _).2 ⟨i, _, hi, hf, rfl⟩⟩

end Muster.Vigil
