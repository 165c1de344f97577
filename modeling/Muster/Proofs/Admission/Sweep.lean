/-
What a sweep of an admission controller comes to, said without its loop. The loop looks at the head of the
queue alone, and it stops at the first live place that finds no ticket; since deadlines never decrease
along the queue nothing that has expired is left behind it. Main statement: `sweep_in_full`.
-/
import Muster.Proofs.Admission.Turns

namespace Muster.Admission

/-! ## Late and timely places -/

namespace Gate

/-- The live places whose time is over. -/
def late (g : Gate) (now : Nat) : List Waiter := g.live.filter (·.deadline ≤ now)

/-- The live places whose time is not over. -/
def timely (g : Gate) (now : Nat) : List Waiter := g.live.filter (now < ·.deadline)

theorem mem_timely {g : Gate} {now : Nat} {w : Waiter} (hw : w ∈ g.timely now) :
    w.cancelled = false ∧ now < w.deadline := by
  obtain ⟨hlive, htime⟩ := List.mem_filter.1 hw
  exact ⟨by simpa using (List.mem_filter.1 hlive).2, of_decide_eq_true htime⟩

end Gate

theorem filter_timely {now : Nat} {ws : List Waiter} (h : ∀ w ∈ ws, now < w.deadline) :
    ws.filter (·.deadline ≤ now) = [] ∧ ws.filter (now < ·.deadline) = ws := by
  refine ⟨List.filter_eq_nil_iff.2 fun w hw => ?_, List.filter_eq_self.2 fun w hw => ?_⟩
  · simpa using h w hw
  · simpa using h w hw

/-! ## The loop -/

/-- To serve a queue in order of deadlines is to fail who is late, and to serve of the others, from
the first on, as many as there are tickets. -/
theorem serve_sorted (now : Nat) : ∀ (ws : List Waiter) (free : Nat),
    (ws.Pairwise fun v w => v.deadline ≤ w.deadline) →
    serve now free ws =
      { free := free - (ws.filter (now < ·.deadline)).length
        served := (ws.filter (·.deadline ≤ now)).map (·, .expired) ++
          ((ws.filter (now < ·.deadline)).take free).map (·, .granted)
        waiting := (ws.filter (now < ·.deadline)).drop free }
  | [], free, _ => by simp [serve]
  | w :: ws, free, hs => by
    obtain ⟨hhead, hrest⟩ := List.pairwise_cons.1 hs
    unfold serve
    split
    · rename_i hle
      rw [serve_sorted now ws free hrest]
      simp [hle]
    · rename_i hlt
      -- behind a place that is not late there is none that is
      have htail : ∀ v ∈ ws, now < v.deadline := fun v hv =>
        Nat.lt_of_lt_of_le (Nat.lt_of_not_le hlt) (hhead v hv)
      obtain ⟨hlate, htimely⟩ := filter_timely htail
      have hhead : now < w.deadline := Nat.lt_of_not_le hlt
      split
      · simp [hlt, hhead, hlate, htimely]
      · rename_i free
        rw [serve_sorted now ws free hrest]
        simp [hlt, hhead, hlate, htimely]

variable {g : Gate} {now : Nat}

/-- A sweep of a gate whose queue is in order of deadlines. -/
theorem sweepAt_sorted (h : g.live.Pairwise fun v w => v.deadline ≤ w.deadline) (now : Nat) :
    g.sweepAt now =
      { free := g.free - (g.timely now).length
        served := (g.late now).map (·, .expired) ++ ((g.timely now).take g.free).map (·, .granted)
        waiting := (g.timely now).drop g.free } :=
  serve_sorted now g.live g.free h

theorem callers_of_served {s : Sweep} {late timely : List Waiter}
    (h : s.served = late.map (·, Verdict.expired) ++ timely.map (·, Verdict.granted)) :
    s.callers .expired = late.map (·.caller) ∧ s.callers .granted = timely.map (·.caller) := by
  unfold Sweep.callers
  rw [h]
  have hall (ws : List Waiter) : ws.filter (fun _ => true) = ws :=
    List.filter_eq_self.2 fun _ _ => rfl
  have hnone (ws : List Waiter) : ws.filter (fun _ => false) = [] :=
    List.filter_eq_nil_iff.2 fun _ _ => Bool.false_ne_true
  simp [List.filter_append, List.filter_map, Function.comp_def, hall, hnone]

/-! ## Runs -/

namespace Hall

/-- What a sweep makes of a hall whose queue is in order of deadlines. -/
theorem step_sweep {h : Hall} (hs : h.gate.live.Pairwise fun v w => v.deadline ≤ w.deadline)
    (hdis : h.gate.closed = true → h.gate.queue = []) :
    (h.step .sweep).2 = { h with
      gate := { h.gate with
        free := h.gate.free - (h.gate.timely h.now).length
        queue := (h.gate.timely h.now).drop h.gate.free }
      sent := h.sent ++ ((h.gate.timely h.now).take h.gate.free).map (·.caller)
      failed := h.failed ++ (h.gate.late h.now).map (·.caller) } := by
  simp only [step]
  split
  · -- a closed gate has no queue, and there is nothing to sweep
    rename_i hclosed
    have hqueue := hdis hclosed
    have hlate : h.gate.late h.now = [] := by
      simp only [Gate.late, Gate.live, hqueue, List.filter_nil]
    have htimely : h.gate.timely h.now = [] := by
      simp only [Gate.timely, Gate.live, hqueue, List.filter_nil]
    simp only [hlate, htimely, List.length_nil, Nat.sub_zero, List.drop_nil, List.take_nil,
      List.map_nil, List.append_nil]
    rw [← hqueue]
  · have hserved := sweepAt_sorted hs h.now
    obtain ⟨hexpired, hgranted⟩ := callers_of_served (congrArg Sweep.served hserved)
    rw [hexpired, hgranted, hserved]
    rfl

/-- A sweep in full. Whatever queue a run has built, whatever number of tickets is free and whatever
time it is: a sweep removes the places that have been given up, fails all whose deadline has come,
grants a ticket to as many of the others as there are tickets, the oldest first, leaves the rest as
they stand, and changes nothing else. So behind it no place is given up or late, and no ticket is
free unless the queue is empty. -/
theorem sweep_in_full (config : Config) (steps : List Step) (free now : Nat) :
    let r := (ofConfig config).run steps
    let h : Hall := { r with now, gate := { r.gate with free } }
    let late := h.gate.late now
    let timely := h.gate.timely now
    let h' := (h.step .sweep).2
    h' = { h with
      gate := { h.gate with free := free - timely.length, queue := timely.drop free }
      sent := h.sent ++ (timely.take free).map (·.caller)
      failed := h.failed ++ late.map (·.caller) } ∧
    (∀ w ∈ h'.gate.queue, w.cancelled = false ∧ now < w.deadline) ∧
    (h'.gate.queue = [] ∨ h'.gate.free = 0) := by
  intro r h late timely h'
  have hi : InTurn config r ((ofConfig config).history steps) :=
    (inTurn_ofConfig config).run steps
  have hfull := step_sweep (h := h) hi.agrees.queued.sorted hi.balanced.dissolved
  refine ⟨hfull, ?_⟩
  rw [show h' = _ from hfull]
  refine ⟨fun w hw => Gate.mem_timely (List.mem_of_mem_drop hw), ?_⟩
  rcases Nat.le_total timely.length free with hle | hle
  · exact .inl (List.drop_eq_nil_of_le hle)
  · exact .inr (Nat.sub_eq_zero_of_le hle)

/-- Of four places one has been given up and one is late, and there is a ticket for one more. -/
example :
    let h := (ofConfig { maxConcurrent := 1, maxWaitNum := 4, maxWait := 9 }).run
      [.tryAcquire 0, .acquire 1, .tick 5, .acquire 2, .acquire 3, .acquire 4, .abandon 2, .tick 5,
        .release 0, .sweep]
    h.failed = [1] ∧ h.sent = [3] ∧ h.gate.queue = [⟨4, 14, false⟩] ∧ h.gate.free = 0 := by
  decide

end Hall
end Muster.Admission
