/-
What the shutdown signal and the closing of an admission controller put an end to. From either on every
attempt is refused, nobody is parked, and who has waited in vain hears of the shutdown. Tickets of the
queue end only with the closing: a sweep between the two still grants (`granted_after_trigger`). Main
statement: `shutdown_final`.
-/
import Muster.Proofs.Admission.Conservation

namespace Muster.Admission.Hall

/-- The signal has fired, or the gate has been closed. -/
def Ending (h : Hall) : Prop := h.shut = true ∨ h.gate.closed = true

/-- From the signal or the closing on nobody is parked and nobody is refused for want of a ticket. -/
theorem move_ending {h h' : Hall} {s : Step} {notices : List Notice} (hm : Move h s notices h')
    (he : h.Ending) :
    h'.Ending ∧ ∀ n ∈ notices, n.turn ≠ .parked ∧ n.turn ≠ .ended (.error .capacity) := by
  unfold Ending at he ⊢
  cases hm with
  | stay | tick | release => exact ⟨he, by simp⟩
  | trigger => exact ⟨.inl rfl, by simp⟩
  | take _ hc hs | park _ _ hc hs => rw [hc, hs] at he; simp at he
  | takeSent | giveBack | forget | giveUp => exact ⟨he, by simp⟩
  | takeFault =>
    have hfault : h.turnedAway = .shutdown := by
      unfold turnedAway
      rcases he with he | he <;> simp [he]
    exact ⟨he, by simp [hfault]⟩
  | sweep =>
    refine ⟨he, fun n hn => ?_⟩
    obtain ⟨⟨w, v⟩, -, rfl⟩ := List.mem_map.1 hn
    cases v <;> simp [Verdict.turn]
  | close =>
    refine ⟨.inr rfl, fun n hn => ?_⟩
    obtain ⟨w, -, rfl⟩ := List.mem_map.1 hn
    simp

/-- From the closing on no ticket leaves the pool. -/
theorem move_free {h h' : Hall} {s : Step} {notices : List Notice} (hm : Move h s notices h')
    (hc : h.gate.closed = true) :
    h.gate.free ≤ h'.gate.free ∧ ∀ n ∈ notices, n.turn ≠ .granted := by
  cases hm with
  | stay | tick | trigger => exact ⟨Nat.le_refl _, by simp⟩
  | take _ ho | park _ _ ho | sweep ho | close ho => rw [hc] at ho; cases ho
  | takeSent | takeFault | forget | giveUp => exact ⟨Nat.le_refl _, by simp⟩
  | release | giveBack => exact ⟨Nat.le_succ _, by simp⟩

theorem tryAcquire_ending {g : Gate} {shut : Bool} (hen : g.isEnabled = true)
    (he : shut = true ∨ g.closed = true) : g.tryAcquire shut = (.error .shutdown, g) := by
  unfold Gate.tryAcquire
  rw [hen]
  rcases he with he | he <;> simp [he]

/-- An enabled gate ends for good. After the signal or the closing, however the run goes on, every
attempt to get a ticket is refused with the shutdown, nobody is parked, and no wait ends for want of
a ticket; and after the closing no ticket leaves the pool and none is sent to anybody. -/
theorem shutdown_final (config : Config) (hen : config.isEnabled = true) (steps more : List Step)
    (hend : ((ofConfig config).run steps).Ending) :
    let h := (ofConfig config).run steps
    (∀ c, ((h.run more).step (.tryAcquire c)).1 = some (.error .shutdown)) ∧
    (∀ c, (h.run more).waits c = false →
      ((h.run more).step (.acquire c)).1 = some (.error .shutdown)) ∧
    (∀ n ∈ h.history more, n.turn ≠ .parked ∧ n.turn ≠ .ended (.error .capacity)) ∧
    (h.gate.closed = true →
      h.gate.free ≤ (h.run more).gate.free ∧ ∀ n ∈ h.history more, n.turn ≠ .granted) := by
  intro h
  have hb : Balanced config (h.run more) := by
    have := run_balanced config (steps ++ more)
    rwa [run_append] at this
  have hen' : (h.run more).gate.isEnabled = true := by
    unfold Gate.isEnabled; rw [hb.settings, hen]
  have hlate : (h.run more).Ending ∧ ∀ n ∈ [] ++ h.history more,
      n.turn ≠ .parked ∧ n.turn ≠ .ended (.error .capacity) := by
    refine run_invariant (P := fun h log => h.Ending ∧ ∀ n ∈ log,
      n.turn ≠ .parked ∧ n.turn ≠ .ended (.error .capacity)) ?_ more h [] ⟨hend, by simp⟩
    rintro h s notices h' log hm ⟨he, hlog⟩
    obtain ⟨he', hnew⟩ := move_ending hm he
    refine ⟨he', fun n hn => ?_⟩
    rcases List.mem_append.1 hn with hn | hn
    · exact hlog n hn
    · exact hnew n hn
  rw [List.nil_append] at hlate
  have hrefused := tryAcquire_ending hen' hlate.1
  refine ⟨fun c => ?_, fun c hw => ?_, hlate.2, fun hc => ?_⟩
  · simp only [step, hrefused]
  · simp only [step, hw, Gate.acquire, hrefused]
    rfl
  · have hfree : (h.run more).gate.closed = true ∧ h.gate.free ≤ (h.run more).gate.free ∧
        ∀ n ∈ [] ++ h.history more, n.turn ≠ .granted := by
      refine run_invariant (P := fun h' log => h'.gate.closed = true ∧ h.gate.free ≤ h'.gate.free ∧
        ∀ n ∈ log, n.turn ≠ .granted) ?_ more h [] ⟨hc, Nat.le_refl _, by simp⟩
      rintro h₁ s notices h₂ log hm ⟨hc, hle, hlog⟩
      obtain ⟨hle', hnew⟩ := move_free hm hc
      refine ⟨move_closed hm hc, Nat.le_trans hle hle', fun n hn => ?_⟩
      rcases List.mem_append.1 hn with hn | hn
      · exact hlog n hn
      · exact hnew n hn
    exact hfree.2

/-- The signal alone does not stop the sweeper: a sweep that comes before the closing sends a ticket
to a caller of the queue, and the caller takes it. -/
theorem granted_after_trigger :
    let h := (ofConfig { maxConcurrent := 1, maxWaitNum := 1 }).run
      [.tryAcquire 0, .acquire 1, .release 0, .trigger]
    h.shut = true ∧ (h.step .sweep).2.sent = [1] ∧
      ((h.step .sweep).2.step (.receive 1)).1 = some (.ok .limited) :=
  ⟨rfl, rfl, rfl⟩

end Muster.Admission.Hall
