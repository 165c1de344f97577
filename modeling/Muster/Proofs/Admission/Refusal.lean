/-
What the limit of an admission controller's queue counts. It counts places, and a place stands in the queue
until a sweep removes it: a caller that has given up, or whose time is over, keeps its place up to the next
sweep. So a caller can be refused while nobody waits in time (`refused_beside_nobody`). Main statement:
`refused_iff_full`.
-/
import Muster.Proofs.Admission.Sweep

namespace Muster.Admission

/-! ## Settings -/

namespace Config

theorem normalized_maxWait_pos (c : Config) : 0 < c.normalized.maxWait := by
  unfold normalized
  split
  · show 0 < defaultMaxWait
    decide
  · rename_i h; exact Nat.pos_of_ne_zero h

theorem normalized_maxWaitNum (c : Config) : c.normalized.maxWaitNum = c.maxWaitNum := by
  unfold normalized; split <;> rfl

theorem normalized_isEnabled (c : Config) : c.normalized.isEnabled = c.isEnabled := by
  unfold normalized; split <;> rfl

theorem normalized_hasQueue (c : Config) : c.normalized.hasQueue = c.hasQueue := by
  unfold hasQueue; rw [normalized_isEnabled, normalized_maxWaitNum]

end Config

/-! ## When there is no ticket, and when there is no place -/

namespace Gate

variable {g : Gate} {shut : Bool}

theorem isEnabled_of_hasQueue (hq : g.config.hasQueue = true) : g.isEnabled = true := by
  simp only [Config.hasQueue, Bool.and_eq_true] at hq
  exact hq.1

theorem tryAcquire_capacity_iff (hen : g.isEnabled = true) :
    (g.tryAcquire shut).1 = .error .capacity ↔ g.closed = false ∧ shut = false ∧ g.free = 0 := by
  unfold tryAcquire
  cases g.closed <;> cases shut <;> cases g.free <;> simp [hen]

theorem park_capacity_iff (now c : Nat) : (g.park shut now c).1 = .done (.error .capacity) ↔
    g.closed = false ∧ shut = false ∧ g.config.maxWaitNum ≤ g.queue.length := by
  unfold park
  cases g.closed <;> cases shut <;> simp
  split <;> simp_all

/-- Who comes to the gate is refused for want of a ticket when there is neither a ticket nor a
place. -/
theorem acquire_capacity_iff (hq : g.config.hasQueue = true) (now c : Nat) :
    (g.acquire shut now c).1 = .done (.error .capacity) ↔
      g.closed = false ∧ shut = false ∧ g.free = 0 ∧ g.config.maxWaitNum ≤ g.queue.length := by
  have hen := isEnabled_of_hasQueue hq
  unfold acquire tryAcquire
  cases hc : g.closed <;> cases shut <;> cases hf : g.free <;> simp [hen, hq, park_capacity_iff, hc]

end Gate

namespace Hall

variable {h h' : Hall} {s : Step} {notices : List Notice}

theorem enter_capacity_iff {c : Nat} {e : Gate.Entered × Gate} :
    (h.enter c e).1 = some (.error .capacity) ↔ e.1 = .done (.error .capacity) := by
  rcases e with ⟨_ | _, g⟩ <;> simp [enter]

theorem tryAcquire_refused_iff (hq : h.gate.config.hasQueue = true) (c : Nat) :
    (h.step (.tryAcquire c)).1 = some (.error .capacity) ↔
      h.gate.closed = false ∧ h.shut = false ∧ h.gate.free = 0 := by
  rw [← Gate.tryAcquire_capacity_iff (Gate.isEnabled_of_hasQueue hq)]
  simp [step]

theorem park_refused_iff (hq : h.gate.config.hasQueue = true) (c : Nat) :
    (h.step (.park c)).1 = some (.error .capacity) ↔ h.waits c = false ∧ h.gate.closed = false ∧
      h.shut = false ∧ h.gate.config.maxWaitNum ≤ h.gate.queue.length := by
  rw [← Gate.park_capacity_iff h.now c]
  simp only [step, hq]
  cases h.waits c <;> simp [enter_capacity_iff]

theorem acquire_refused_iff (hq : h.gate.config.hasQueue = true) (c : Nat) :
    (h.step (.acquire c)).1 = some (.error .capacity) ↔ h.waits c = false ∧ h.gate.closed = false ∧
      h.shut = false ∧ h.gate.free = 0 ∧ h.gate.config.maxWaitNum ≤ h.gate.queue.length := by
  rw [← Gate.acquire_capacity_iff hq h.now c]
  simp only [step]
  cases h.waits c <;> simp [enter_capacity_iff]

/-! ## Places -/

/-- A place of the queue has been there before the step, or has just been taken, or has just been
given up. -/
theorem move_place (hm : Move h s notices h') {w : Waiter} (hw : w ∈ h'.gate.queue) :
    w ∈ h.gate.queue ∨
    (w.cancelled = false ∧ w.deadline = h.now + h.gate.config.maxWait ∧
      ⟨h.now, w.caller, .parked⟩ ∈ notices) ∨
    (∃ v ∈ h.gate.queue, w = { v with cancelled := true } ∧
      ⟨h.now, w.caller, .cancelled⟩ ∈ notices) := by
  cases hm with
  | stay | tick | trigger | take | takeSent | takeFault | release | giveBack | forget =>
    exact .inl hw
  | park =>
    rcases List.mem_append.1 hw with hw | hw
    · exact .inl hw
    · rw [List.mem_singleton] at hw
      subst hw; exact .inr (.inl ⟨rfl, rfl, List.mem_singleton_self _⟩)
  | giveUp =>
    obtain ⟨v, hv, rfl⟩ := List.mem_map.1 hw
    split
    · rename_i hc
      refine .inr (.inr ⟨v, hv, rfl, ?_⟩)
      rw [← hc]; exact List.mem_singleton_self _
    · exact .inl hv
  | sweep =>
    have hlive := (serve_waiting_sublist h.now h.gate.live h.gate.free).subset hw
    exact .inl (List.mem_filter.1 hlive).1
  | close => cases hw

/-- Each place has been taken by a caller, and its time is counted from then. -/
def Taken (config : Config) (h : Hall) (log : List Notice) : Prop :=
  ∀ w ∈ h.gate.queue, ∃ t, ⟨t, w.caller, .parked⟩ ∈ log ∧ w.deadline = t + config.maxWait

/-- The places of a hall that have been given up, or whose time is over, have been so only since an
earlier hall, of which `log` tells. -/
structure Lately (earlier h : Hall) (log : List Notice) : Prop where
  later : earlier.now ≤ h.now
  deadline : ∀ w ∈ h.gate.queue, earlier.now < w.deadline
  cancelled : ∀ w ∈ h.gate.queue, w.cancelled = true → ∃ t, ⟨t, w.caller, .cancelled⟩ ∈ log

/-- A place is held by a caller that waits in time, or it has been given up lately, or its time has
ended lately. -/
theorem Lately.cases {earlier : Hall} {log : List Notice} (hl : Lately earlier h log) {w : Waiter}
    (hw : w ∈ h.gate.queue) : w ∈ h.gate.timely h.now ∨
      (w.cancelled = true ∧ ∃ t, ⟨t, w.caller, .cancelled⟩ ∈ log) ∨
      (earlier.now < w.deadline ∧ w.deadline ≤ h.now) := by
  by_cases hc : w.cancelled = true
  · exact .inr (.inl ⟨hc, hl.cancelled w hw hc⟩)
  by_cases hlate : w.deadline ≤ h.now
  · exact .inr (.inr ⟨hl.deadline w hw, hlate⟩)
  · refine .inl (List.mem_filter.2 ⟨List.mem_filter.2 ⟨hw, ?_⟩, ?_⟩)
    · simpa using hc
    · simpa using hlate

theorem move_taken {config : Config} {log : List Notice} (hm : Move h s notices h')
    (hcfg : h.gate.config = config) (ht : Taken config h log) :
    Taken config h' (log ++ notices) := by
  intro w hw
  rcases move_place hm hw with hw | ⟨-, hd, hn⟩ | ⟨v, hv, rfl, -⟩
  · obtain ⟨t, hn, hd⟩ := ht w hw
    exact ⟨t, List.mem_append_left _ hn, hd⟩
  · exact ⟨h.now, List.mem_append_right _ hn, hcfg ▸ hd⟩
  · obtain ⟨t, hn, hd⟩ := ht v hv
    exact ⟨t, List.mem_append_left _ hn, hd⟩

theorem move_config (hm : Move h s notices h') : h'.gate.config = h.gate.config := by
  cases hm <;> rfl

theorem move_now (hm : Move h s notices h') : h.now ≤ h'.now := by
  cases hm with
  | tick ms => exact Nat.le_add_right _ _
  | _ => exact Nat.le_refl _

theorem move_lately {earlier : Hall} {log : List Notice} (hm : Move h s notices h')
    (hwait : 0 < h.gate.config.maxWait) (hl : Lately earlier h log) :
    Lately earlier h' (log ++ notices) := by
  refine ⟨Nat.le_trans hl.later (move_now hm), fun w hw => ?_, fun w hw hc => ?_⟩
  · rcases move_place hm hw with hw | ⟨-, hd, -⟩ | ⟨v, hv, rfl, -⟩
    · exact hl.deadline w hw
    · have := hl.later; omega
    · exact hl.deadline v hv
  · rcases move_place hm hw with hw | ⟨hnot, -, -⟩ | ⟨-, -, -, hn⟩
    · obtain ⟨t, hn⟩ := hl.cancelled w hw hc
      exact ⟨t, List.mem_append_left _ hn⟩
    · rw [hc] at hnot; cases hnot
    · exact ⟨h.now, List.mem_append_right _ hn⟩

/-- Behind a sweep, and at the beginning, no place has been given up and none is late. -/
theorem lately_start {config : Config} {steps : List Step}
    (hlast : steps = [] ∨ ∃ before, steps = before ++ [.sweep]) :
    Lately ((ofConfig config).run steps) ((ofConfig config).run steps) [] := by
  rcases hlast with rfl | ⟨before, rfl⟩
  · -- the queue is empty
    exact ⟨Nat.le_refl _, nofun, nofun⟩
  have hi : InTurn config ((ofConfig config).run before) ((ofConfig config).history before) :=
    (inTurn_ofConfig config).run before
  rw [run_append, run_cons, step_sweep hi.agrees.queued.sorted hi.balanced.dissolved]
  refine ⟨Nat.le_refl _, fun w hw => ?_, fun w hw hc => ?_⟩
  · exact (Gate.mem_timely (List.mem_of_mem_drop hw)).2
  · rw [(Gate.mem_timely (List.mem_of_mem_drop hw)).1] at hc; cases hc

theorem run_taken (config : Config) (steps : List Step) :
    Taken config ((ofConfig config).run steps) ((ofConfig config).history steps) := by
  have hrun := run_invariant
    (P := fun h log => h.gate.config = config ∧ Taken config h log)
    (fun _ _ _ _ _ hm hP => ⟨(move_config hm).trans hP.1, move_taken hm hP.1 hP.2⟩)
    steps (ofConfig config) [] ⟨rfl, by simp [Taken, ofConfig, Gate.ofConfig]⟩
  exact hrun.2

theorem run_lately {earlier : Hall} (hwait : 0 < earlier.gate.config.maxWait)
    (hl : Lately earlier earlier []) (steps : List Step) :
    Lately earlier (earlier.run steps) (earlier.history steps) := by
  have hrun := run_invariant
    (P := fun h log => h.gate.config = earlier.gate.config ∧ Lately earlier h log)
    (fun _ _ _ _ _ hm hP => ⟨(move_config hm).trans hP.1, move_lately hm (hP.1 ▸ hwait) hP.2⟩)
    steps earlier [] ⟨rfl, hl⟩
  exact hrun.2

/-- The limit of the queue counts places. At a gate with a queue a caller is refused on its coming
only when no ticket is free and all places are taken; one that comes to the queue later has found no
ticket free before, and is refused only when all places are taken then. Each place has been taken by
a caller before. This caller waits in time, or it has given up, or its time has ended, since the
last sweep or, if there has been none, since the beginning; and no caller waits in two places. -/
theorem refused_iff_full (config : Config) (hq : config.hasQueue = true) (before since : List Step)
    (hlast : before = [] ∨ ∃ pre, before = pre ++ [.sweep]) (c : Nat) :
    let h₀ := (ofConfig config.normalized).run before
    let h := h₀.run since
    ((h.step (.acquire c)).1 = some (.error .capacity) ↔ h.waits c = false ∧ h.gate.closed = false ∧
      h.shut = false ∧ h.gate.free = 0 ∧ h.gate.queue.length = config.maxWaitNum) ∧
    ((h.step (.tryAcquire c)).1 = some (.error .capacity) ↔
      h.gate.closed = false ∧ h.shut = false ∧ h.gate.free = 0) ∧
    ((h.step (.park c)).1 = some (.error .capacity) ↔ h.waits c = false ∧ h.gate.closed = false ∧
      h.shut = false ∧ h.gate.queue.length = config.maxWaitNum) ∧
    (∀ w ∈ h.gate.queue,
      (∃ t, ⟨t, w.caller, .parked⟩ ∈ (ofConfig config.normalized).history (before ++ since) ∧
        w.deadline = t + config.normalized.maxWait) ∧
      (w ∈ h.gate.timely h.now ∨
        (w.cancelled = true ∧ ∃ t, ⟨t, w.caller, .cancelled⟩ ∈ h₀.history since) ∨
        (h₀.now < w.deadline ∧ w.deadline ≤ h.now))) ∧
    ((h.gate.timely h.now).map (·.caller)).Nodup := by
  intro h₀ h
  have hrun : h = (ofConfig config.normalized).run (before ++ since) :=
    (run_append _ before since).symm
  have hi :
      InTurn config.normalized h ((ofConfig config.normalized).history (before ++ since)) := by
    rw [hrun]; exact (inTurn_ofConfig _).run _
  have hcfg : h.gate.config = config.normalized := hi.balanced.settings
  have hq' : h.gate.config.hasQueue = true := by rw [hcfg, Config.normalized_hasQueue, hq]
  -- the queue never holds more than its places, so it is full when it is not short of them
  have hfull : h.gate.config.maxWaitNum ≤ h.gate.queue.length ↔
      h.gate.queue.length = config.maxWaitNum := by
    have := hi.balanced.places
    rw [hcfg]
    rw [Config.normalized_maxWaitNum] at this ⊢
    omega
  refine ⟨?_, tryAcquire_refused_iff hq' c, ?_, fun w hw => ⟨?_, ?_⟩, ?_⟩
  · rw [acquire_refused_iff hq', hfull]
  · rw [park_refused_iff hq', hfull]
  · have htaken := run_taken config.normalized (before ++ since)
    rw [← hrun] at htaken
    exact htaken w hw
  · have hwait : 0 < h₀.gate.config.maxWait := by
      rw [(run_balanced config.normalized before).settings]; exact config.normalized_maxWait_pos
    exact (run_lately hwait (lately_start hlast) since).cases hw
  · exact hi.agrees.nodup.sublist (List.filter_sublist.map _)

/-- Two callers wait, and one of them gives up behind the last sweep: the next caller is refused. -/
theorem refused_beside_one :
    let config : Config := { maxConcurrent := 1, maxWaitNum := 2, maxWait := 9 }
    let before : List Step := [.tryAcquire 0, .acquire 1, .acquire 2, .sweep]
    let h₀ := (ofConfig config.normalized).run before
    let h := h₀.run [.abandon 1]
    config.hasQueue = true ∧ (∃ pre, before = pre ++ [.sweep]) ∧
      (h.step (.acquire 3)).1 = some (.error .capacity) ∧
      (h.gate.timely h.now).map (·.caller) = [2] ∧
      ∃ t, ⟨t, 1, .cancelled⟩ ∈ h₀.history [.abandon 1] := by
  intro config before h₀ h
  have hlast : ∃ pre, before = pre ++ [.sweep] := ⟨[.tryAcquire 0, .acquire 1, .acquire 2], rfl⟩
  obtain ⟨hrefused, -, -, hplaces, -⟩ :=
    refused_iff_full config rfl before [.abandon 1] (.inr hlast) 3
  refine ⟨rfl, hlast, hrefused.2 (by decide), by decide, ?_⟩
  -- the place that has been given up is neither timely nor late
  rcases (hplaces ⟨1, 9, true⟩ (by decide)).2 with htimely | ⟨-, hnotice⟩ | ⟨-, hlate⟩
  · cases (Gate.mem_timely htimely).1
  · exact hnotice
  · exact absurd hlate (by decide)

/-- The only place is given up, or its time ends. No caller waits in time then, and yet the next one
is refused: the place stands until the next sweep. -/
theorem refused_beside_nobody :
    let start := ofConfig { maxConcurrent := 1, maxWaitNum := 1, maxWait := 30 }
    let left := start.run [.tryAcquire 0, .acquire 1, .abandon 1]
    let late := start.run [.tryAcquire 0, .acquire 1, .tick 40]
    ((left.step (.acquire 2)).1 = some (.error .capacity) ∧ left.gate.timely left.now = [] ∧
      ∀ c, left.waits c = false) ∧
    (late.step (.acquire 2)).1 = some (.error .capacity) ∧ late.gate.timely late.now = [] := by
  refine ⟨⟨rfl, rfl, fun c => Bool.eq_false_iff.2 fun hw => ?_⟩, rfl, rfl⟩
  rcases waits_iff.1 hw with ⟨w, hw, -⟩ | hw | hw
  · cases hw
  · cases hw
  · cases hw

end Hall
end Muster.Admission
