/-
Waiting for a shutdown signal. A wait is over only when the signal has been triggered, and when it has
been, the next look ends the wait; nobody who is to be let go is left without a call to look. Main
statement: `signals_follow_tree`.
-/
import Muster.Proofs.Signal.Kinship

namespace Muster

/-! ## Looking -/

theorem Signals.version_eq_zero {s : Signals} {c : Nat} : s.version c = 0 ↔ c ∉ s.fired :=
  List.count_eq_zero

/-- A first look ends at a cell that has been triggered, and enters at cells that never have been. -/
theorem Sight.first_eq (s : Signals) (cells : List Nat) :
    first s cells = if cells.any (s.fired.contains ·) then none else some (cells.map (⟨·, 0⟩)) := by
  induction cells with
  | nil => rfl
  | cons c cells ih =>
    cases hc : s.fired.contains c with
    | true => rw [first, List.any_cons, hc, if_pos rfl, Bool.true_or, if_pos rfl]
    | false =>
      have hzero : s.version c = 0 := Signals.version_eq_zero.2 (by simpa using hc)
      rw [first, List.any_cons, hc, if_neg Bool.false_ne_true, Bool.false_or, ih, hzero]
      split <;> rfl

/-- Where nothing had been triggered, a later look sees what a first one would. -/
theorem Sight.again_eq (s : Signals) (cells : List Nat) :
    again s (cells.map (⟨·, 0⟩)) = first s cells := by
  induction cells with
  | nil => rfl
  | cons c cells ih =>
    rw [List.map_cons, again, first, ih]
    by_cases hc : c ∈ s.fired
    · rw [if_pos ⟨fun h => Signals.version_eq_zero.1 h hc, by simpa using hc⟩,
        if_pos (by simpa using hc)]
    · rw [if_neg fun h => hc (by simpa using h.2), if_neg (by simpa using hc)]

namespace Wait

/-- What is known of somebody who waits: only a trigger ends the wait, there had been none at the last
look, and any since then has been a call. -/
structure Sound (s : Signals) (w : Wait) : Prop where
  ended : w.progress = .ended → s.isTriggered w.signal = true
  begun : w.progress = .begun → w.called = true
  entered : ∀ sights, w.progress = .entered sights → sights = w.signal.cells.map (⟨·, 0⟩) ∧
    (w.called = false → s.isTriggered w.signal = false)

variable {s : Signals} {w : Wait}

theorem isOver_iff : w.isOver = true ↔ w.progress = .ended := by
  unfold isOver
  simp

theorem look_signal (w : Wait) (s : Signals) : (w.look s).signal = w.signal := by
  unfold look after
  split
  · split <;> rfl
  · split <;> rfl
  · rfl

/-- Whatever has been seen before, a look is one at all cells of the signal. -/
theorem Sound.look_eq (h : w.Sound s) (hover : w.progress ≠ .ended) :
    w.look s = w.after (Sight.first s w.signal.cells) := by
  unfold look
  split
  · rfl
  · rename_i sights hp
    rw [(h.entered sights hp).1, Sight.again_eq]
  · rename_i hp
    exact absurd hp hover

/-- A look ends the wait exactly if the signal has been triggered. -/
theorem Sound.isOver_look (h : w.Sound s) :
    (w.look s).isOver = true ↔ s.isTriggered w.signal = true := by
  by_cases hover : w.progress = .ended
  · have hlook : w.look s = w := by unfold look; rw [hover]
    rw [hlook, isOver_iff]
    exact ⟨h.ended, fun _ => hover⟩
  · rw [h.look_eq hover, Sight.first_eq, isOver_iff]
    show (w.after (if s.isTriggered w.signal = true then _ else _)).progress = _ ↔ _
    split <;> simp [after, *]

theorem Sound.look (h : w.Sound s) : (w.look s).Sound s := by
  have hiff := h.isOver_look
  rw [isOver_iff, ← look_signal w s] at hiff
  by_cases hover : w.progress = .ended
  · have hlook : w.look s = w := by unfold Wait.look; rw [hover]
    rwa [hlook]
  · refine ⟨hiff.1, fun hp => ?_, fun sights hp => ?_⟩
    · rw [h.look_eq hover] at hp
      unfold after at hp
      split at hp <;> cases hp
    · refine ⟨?_, fun _ => Bool.eq_false_iff.2 fun ht => ?_⟩
      · rw [h.look_eq hover, Sight.first_eq] at hp
        rw [look_signal]
        split at hp
        · cases hp
        · cases hp; rfl
      · rw [hiff.2 ht] at hp
        cases hp

end Wait

theorem Signals.isTriggered_trigger {s : Signals} {g k : Signal} :
    (s.trigger g).isTriggered k = true ↔ s.isTriggered k = true ∨ g.cell ∈ k.cells := by
  rw [Vigil.isTriggered_iff, Vigil.isTriggered_iff]
  constructor
  · rintro ⟨c, hc, hfired⟩
    rcases List.mem_cons.1 hfired with rfl | hfired
    · exact .inr hc
    · exact .inl ⟨c, hc, hfired⟩
  · rintro (⟨c, hc, hfired⟩ | hg)
    · exact ⟨c, hc, List.mem_cons_of_mem _ hfired⟩
    · exact ⟨_, hg, List.mem_cons_self⟩

namespace Wait

variable {s : Signals} {w : Wait}

/-- A trigger calls, or changes nothing. -/
theorem hear_eq (w : Wait) (cell : Nat) :
    w.hear cell = w ∨ w.hear cell = { w with called := true } := by
  unfold hear
  split
  · split
    · exact .inr rfl
    · exact .inl rfl
  · exact .inl rfl

/-- Whoever is concerned is called. -/
theorem Sound.hear_concerned (h : w.Sound s) {cell : Nat} (hc : cell ∈ w.signal.cells)
    {sights : List Sight} (hp : w.progress = .entered sights) : (w.hear cell).called = true := by
  unfold Wait.hear
  rw [hp, (h.entered sights hp).1]
  dsimp only
  rw [if_pos (by simpa using hc)]

/-- A trigger calls those whom it concerns. -/
theorem Sound.hear (h : w.Sound s) (g : Signal) : (w.hear g.cell).Sound (s.trigger g) := by
  have hprogress : (w.hear g.cell).progress = w.progress ∧ (w.hear g.cell).signal = w.signal := by
    rcases w.hear_eq g.cell with heq | heq <;> rw [heq] <;> exact ⟨rfl, rfl⟩
  refine ⟨fun hp => ?_, fun hp => ?_, fun sights hp => ?_⟩
  · rw [hprogress.2]
    exact Signals.isTriggered_trigger.2 (.inl (h.ended (hprogress.1 ▸ hp)))
  · have hcalled := h.begun (hprogress.1 ▸ hp)
    rcases w.hear_eq g.cell with heq | heq <;> rw [heq]
    exact hcalled
  · have hentered := hprogress.1 ▸ hp
    rw [hprogress.2]
    refine ⟨(h.entered sights hentered).1, fun hquiet => Bool.eq_false_iff.2 fun ht => ?_⟩
    rcases Signals.isTriggered_trigger.1 ht with ht | hcell
    · have hcalled : w.called = false := by
        rcases w.hear_eq g.cell with heq | heq <;> rw [heq] at hquiet
        · exact hquiet
        · cases hquiet
      rw [(h.entered sights hentered).2 hcalled] at ht
      cases ht
    · rw [h.hear_concerned hcell hentered] at hquiet
      cases hquiet

/-- A wait for a signal that has been triggered is over, or called to look. -/
theorem Sound.noticed (h : w.Sound s) (ht : s.isTriggered w.signal = true) :
    w.isOver = true ∨ w.called = true := by
  cases hp : w.progress with
  | begun => exact .inr (h.begun hp)
  | ended => exact .inl (isOver_iff.2 hp)
  | entered sights =>
    refine .inr (Bool.not_eq_false _ ▸ fun hquiet => ?_)
    rw [(h.entered sights hp).2 hquiet] at ht
    cases ht

theorem Sound.congr (h : w.Sound s) {s' : Signals} (hs : s'.fired = s.fired) : w.Sound s' := by
  have hsame : s'.isTriggered w.signal = s.isTriggered w.signal := by
    unfold Signals.isTriggered
    rw [hs]
  exact ⟨fun hp => hsame ▸ h.ended hp, h.begun, fun sights hp => hsame ▸ h.entered sights hp⟩

end Wait

namespace Vigil

/-! ## Steps -/

/-- What is known of all who wait. -/
def Attended (v : Vigil) : Prop := ∀ w ∈ v.waits, w.Sound v.signals ∧ w.signal ∈ v.handles

theorem Attended.act {v : Vigil} (h : v.Attended) (a : Act) : (v.act a).Attended := by
  cases a with
  | new => exact fun w hw => ⟨(h w hw).1.congr rfl, List.mem_append_left _ (h w hw).2⟩
  | child p =>
    simp only [Vigil.act, withHandle]
    split
    · exact fun w hw => ⟨(h w hw).1.congr rfl, List.mem_append_left _ (h w hw).2⟩
    · exact h
  | clone p =>
    simp only [Vigil.act, withHandle]
    split
    · exact fun w hw => ⟨(h w hw).1, List.mem_append_left _ (h w hw).2⟩
    · exact h
  | trigger i =>
    simp only [Vigil.act, withHandle]
    split
    · intro w hw
      obtain ⟨u, hu, rfl⟩ := List.mem_map.1 hw
      refine ⟨(h u hu).1.hear _, ?_⟩
      rcases u.hear_eq _ with heq | heq <;> rw [heq] <;> exact (h u hu).2
    · exact h
  | await i =>
    simp only [Vigil.act, withHandle]
    split
    · rename_i g hg
      intro w hw
      rcases List.mem_append.1 hw with hw | hw
      · exact h w hw
      · obtain rfl := List.mem_singleton.1 hw
        exact ⟨⟨by simp, fun _ => rfl, by simp⟩, List.mem_of_getElem? hg⟩
    · exact h
  | look i =>
    intro w hw
    obtain ⟨j, hj⟩ := List.mem_iff_getElem?.1 hw
    simp only [Vigil.act, List.getElem?_modify] at hj
    obtain ⟨u, hu, hj⟩ := Option.map_eq_some_iff.1 hj
    have hmem := h u (List.mem_of_getElem? hu)
    split at hj <;> subst hj
    · exact ⟨hmem.1.look, by rw [Wait.look_signal]; exact hmem.2⟩
    · exact hmem

theorem run_attended (acts : List Act) : (({} : Vigil).run acts).Attended := by
  induction acts using List.reverseRecOn with
  | nil => exact fun w hw => nomatch hw
  | append_singleton acts a ih => rw [run_concat]; exact ih.act a

/-- A wait that is over remains so. -/
theorem isOver_act (v : Vigil) (a : Act) {i : Nat} {w : Wait} (h : v.waits[i]? = some w)
    (hover : w.isOver = true) : (v.act a).waits[i]? = some w := by
  have hp := Wait.isOver_iff.1 hover
  cases a with
  | new => exact h
  | child p | clone p =>
    simp only [act, withHandle]
    split <;> exact h
  | trigger p =>
    simp only [act, withHandle]
    split
    · rw [List.getElem?_map, h]
      show some (w.hear _) = _
      unfold Wait.hear
      rw [hp]
    · exact h
  | await p =>
    simp only [act, withHandle]
    split
    · exact getElem?_concat_old h
    · exact h
  | look j =>
    simp only [act, List.getElem?_modify, h]
    have hlook : w.look v.signals = w := by unfold Wait.look; rw [hp]
    show some (if j = i then w.look v.signals else w) = _
    rw [hlook, ite_self]

theorem handle_run (v : Vigil) (acts : List Act) {i : Nat} {g : Signal} (h : v.handles[i]? = some g) :
    (v.run acts).handles[i]? = some g := by
  induction acts generalizing v with
  | nil => exact h
  | cons a acts ih => exact ih _ (handle_act v a h)

theorem fired_run (v : Vigil) (acts : List Act) {c : Nat} (h : c ∈ v.signals.fired) :
    c ∈ (v.run acts).signals.fired := by
  induction acts generalizing v with
  | nil => exact h
  | cons a acts ih => exact ih _ ((fired_act v a c).2 (.inl h))

theorem isOver_run (v : Vigil) (acts : List Act) {i : Nat} {w : Wait} (h : v.waits[i]? = some w)
    (hover : w.isOver = true) : (v.run acts).waits[i]? = some w := by
  induction acts generalizing v with
  | nil => exact h
  | cons a acts ih => exact ih _ (isOver_act v a h hover)

/-- A trigger changes nothing for a signal that it does not reach. -/
theorem isTriggered_unreached (acts : List Act) {i j : Nat} {g : Signal}
    (hj : (({} : Vigil).run acts).handles[j]? = some g) (h : ¬ Reaches (origins acts) i j) :
    ((({} : Vigil).run acts).act (.trigger i)).signals.isTriggered g =
      (({} : Vigil).run acts).signals.isTriggered g := by
  simp only [act, withHandle]
  split
  · rename_i f hf
    have hcell : f.cell ∉ g.cells := fun hc => h (((run_kindred acts).mem_cells_iff hf j hj).1 hc)
    rw [Bool.eq_iff_iff, Signals.isTriggered_trigger]
    simp only [hcell, or_false]
  · rfl

/-! ## Runs -/

/-- In every forest of signals, whatever has been triggered in it: a signal counts as triggered
exactly if it, one above it, or another handle of one of these has been; the waits for it end exactly
then, and whoever could be let go is through or called to look; it remains so for good; and a trigger
changes nothing for the signals that are neither the triggered one nor below it. -/
theorem signals_follow_tree (acts : List Act) :
    let v := ({} : Vigil).run acts
    (∀ (j : Nat) (g : Signal), v.handles[j]? = some g → (v.signals.isTriggered g = true ↔
      ∃ i, Triggered acts i ∧ Reaches (origins acts) i j)) ∧
    (∀ w ∈ v.waits, w.signal ∈ v.handles ∧
      (w.isOver = true → v.signals.isTriggered w.signal = true) ∧
      (v.signals.isTriggered w.signal = true → w.isOver = true ∨ w.called = true) ∧
      ((w.look v.signals).isOver = true ↔ v.signals.isTriggered w.signal = true)) ∧
    (∀ more,
      (∀ (j : Nat) (g : Signal), v.handles[j]? = some g → (v.run more).handles[j]? = some g ∧
        (v.signals.isTriggered g = true → (v.run more).signals.isTriggered g = true)) ∧
      ∀ (i : Nat) (w : Wait), v.waits[i]? = some w → w.isOver = true →
        (v.run more).waits[i]? = some w) ∧
    ∀ (i j : Nat) (g : Signal), v.handles[j]? = some g → ¬ Reaches (origins acts) i j →
      (v.act (.trigger i)).signals.isTriggered g = v.signals.isTriggered g := by
  intro v
  refine ⟨fun j g hj => isTriggered_handle_iff acts hj, fun w hw => ?_, fun more => ⟨fun j g hj => ?_,
    fun i w hw hover => isOver_run v more hw hover⟩, fun i j g hj h => isTriggered_unreached acts hj h⟩
  · obtain ⟨hsound, hmem⟩ := run_attended acts w hw
    exact ⟨hmem, fun hover => hsound.ended (Wait.isOver_iff.1 hover), hsound.noticed,
      hsound.isOver_look⟩
  · refine ⟨handle_run v more hj, fun ht => ?_⟩
    obtain ⟨c, hc, hfired⟩ := isTriggered_iff.1 ht
    exact isTriggered_iff.2 ⟨c, hc, fired_run v more hfired⟩

/-- A clone of a child is triggered: the grandchild is, and who waits for it is let go; the root
is not. -/
theorem grandchild_follows :
    let acts : List Act := [.new, .child 0, .clone 1, .child 1, .await 3, .look 0, .trigger 2, .look 0]
    let v := ({} : Vigil).run acts
    v.handles[3]? = some { cell := 2, above := [1, 0] } ∧ v.handles[0]? = some { cell := 0 } ∧
    (∃ i, Triggered acts i ∧ Reaches (origins acts) i 3) ∧
    (¬ ∃ i, Triggered acts i ∧ Reaches (origins acts) i 0) ∧
    v.waits.map Wait.isOver = [true] := by
  intro acts v
  have hthree : v.handles[3]? = some { cell := 2, above := [1, 0] } := by decide
  have hzero : v.handles[0]? = some { cell := 0 } := by decide
  obtain ⟨htriggered, -⟩ := signals_follow_tree acts
  refine ⟨hthree, hzero, (htriggered 3 _ hthree).1 (by decide), fun h => ?_, by decide⟩
  have hfalse : v.signals.isTriggered { cell := 0 } = false := by decide
  rw [(htriggered 0 _ hzero).2 h] at hfalse
  cases hfalse

end Vigil

/-- Those whom `wake` lets go are those whose next look ends their wait. -/
theorem Signals.wake_eq_look {s : Signals} {waits : List Wait} (h : ∀ w ∈ waits, w.Sound s) :
    (s.wake (waits.map fun w => (w, w.signal))).1 = waits.filter fun w => (w.look s).isOver := by
  induction waits with
  | nil => rfl
  | cons w waits ih =>
    have hw := (h w List.mem_cons_self).isOver_look
    have hrest := ih fun u hu => h u (List.mem_cons_of_mem w hu)
    unfold wake at hrest ⊢
    simp only [List.partition_eq_filter_filter] at hrest ⊢
    cases ht : s.isTriggered w.signal with
    | true => simp [ht, hw.2 ht, hrest]
    | false =>
      have hnot : (w.look s).isOver = false := Bool.eq_false_iff.2 fun ho => by
        rw [hw.1 ho] at ht
        cases ht
      simp [ht, hnot, hrest]

end Muster
