/-
Conservation of the tickets of an admission controller: along every run the tickets in the hands of
callers, those on their way to a caller and those in the pool add up to the tickets of the gate; the queue
keeps within its places; and a gate that has been closed has an empty queue from then on.
-/
import Muster.Proofs.Admission.Moves

namespace Muster.Admission

/-! ## The balance of a sweep -/

theorem callers_cons (s : Sweep) (w : Waiter) (v u : Verdict) :
    Sweep.callers { s with served := (w, v) :: s.served } u =
      if v = u then w.caller :: s.callers u else s.callers u := by
  unfold Sweep.callers
  rw [List.filter_cons]
  split
  · rename_i hv
    rw [if_pos (of_decide_eq_true hv), List.map_cons]
  · rename_i hv
    rw [if_neg fun h => hv (decide_eq_true h)]

/-- A sweep takes from the pool exactly what it grants. -/
theorem serve_free (now : Nat) : ∀ (ws : List Waiter) (free : Nat),
    (serve now free ws).free + ((serve now free ws).callers .granted).length = free
  | [], free => rfl
  | w :: ws, free => by
    unfold serve
    split
    · rw [callers_cons, if_neg (by decide)]
      exact serve_free now ws free
    · split
      · rfl
      · rename_i free
        rw [callers_cons, if_pos rfl, List.length_cons, ← Nat.add_assoc, serve_free now ws free]

/-- Who goes on waiting after a sweep keeps its place. -/
theorem serve_waiting_sublist (now : Nat) : ∀ (ws : List Waiter) (free : Nat),
    (serve now free ws).waiting.Sublist ws
  | [], _ => List.Sublist.refl []
  | w :: ws, free => by
    unfold serve
    split
    · exact (serve_waiting_sublist now ws free).cons w
    · split
      · exact List.Sublist.refl (w :: ws)
      · exact (serve_waiting_sublist now ws _).cons w

namespace Hall

/-! ## The invariant -/

/-- No ticket is lost or made up, the queue has its places, and a closed gate has no queue. -/
structure Balanced (config : Config) (h : Hall) : Prop where
  settings : h.gate.config = config
  tickets : h.held.length + h.sent.length + h.gate.free = config.maxConcurrent
  places : h.gate.queue.length ≤ config.maxWaitNum
  dissolved : h.gate.closed = true → h.gate.queue = []

theorem balanced_ofConfig (config : Config) : Balanced config (ofConfig config) :=
  ⟨rfl, by simp [ofConfig, Gate.ofConfig], by simp [ofConfig, Gate.ofConfig], fun _ => rfl⟩

theorem move_balanced {config : Config} {h h' : Hall} {s : Step} {notices : List Notice}
    (hm : Move h s notices h') (hb : Balanced config h) : Balanced config h' := by
  obtain ⟨hcfg, htick, hroom, hdis⟩ := hb
  cases hm with
  | stay | tick | trigger => exact ⟨hcfg, htick, hroom, hdis⟩
  | take hs hc hsh hf =>
    refine ⟨hcfg, ?_, hroom, hdis⟩
    simp only [List.length_cons]; omega
  | park hs hw hc hsh hq =>
    refine ⟨hcfg, htick, ?_, fun h => ?_⟩
    · rw [hcfg] at hq
      simp only [List.length_append, List.length_singleton]; omega
    · rw [hc] at h; cases h
  | takeSent hs =>
    refine ⟨hcfg, ?_, hroom, hdis⟩
    have := List.length_pos_of_mem hs
    simp only [List.length_cons, List.length_erase_of_mem hs]; omega
  | takeFault | forget => exact ⟨hcfg, htick, hroom, hdis⟩
  | release hh =>
    refine ⟨hcfg, ?_, hroom, hdis⟩
    have := List.length_pos_of_mem hh
    simp only [Gate.release, List.length_erase_of_mem hh]; omega
  | giveBack hs =>
    refine ⟨hcfg, ?_, hroom, hdis⟩
    have := List.length_pos_of_mem hs
    simp only [Gate.release, List.length_erase_of_mem hs]; omega
  | giveUp =>
    refine ⟨hcfg, htick, ?_, fun h => ?_⟩
    · simpa only [Gate.cancel, List.length_map] using hroom
    · simp only [Gate.cancel, hdis h, List.map_nil]
  | sweep hc =>
    refine ⟨hcfg, ?_, ?_, fun h => ?_⟩
    · have := serve_free h.now h.gate.live h.gate.free
      simp only [Gate.swept, Gate.sweepAt, List.length_append]
      unfold Gate.live at this; omega
    · have h1 := (serve_waiting_sublist h.now h.gate.live h.gate.free).length_le
      have h2 : h.gate.live.length ≤ h.gate.queue.length := List.length_filter_le _ _
      exact Nat.le_trans h1 (Nat.le_trans h2 hroom)
    · rw [Gate.swept] at h; rw [hc] at h; cases h
  | close => exact ⟨hcfg, htick, Nat.zero_le _, fun _ => rfl⟩

theorem run_balanced (config : Config) (steps : List Step) :
    Balanced config ((ofConfig config).run steps) :=
  run_invariant (P := fun h _ => Balanced config h) (fun _ _ _ _ _ hm hb => move_balanced hm hb)
    steps _ [] (balanced_ofConfig config)

/-! ## Closing is final -/

theorem move_closed {h h' : Hall} {s : Step} {notices : List Notice} (hm : Move h s notices h')
    (hc : h.gate.closed = true) : h'.gate.closed = true := by
  cases hm <;> first | exact hc | rfl

theorem run_closed {h : Hall} (hc : h.gate.closed = true) (steps : List Step) :
    (h.run steps).gate.closed = true :=
  run_invariant (P := fun h _ => h.gate.closed = true) (fun _ _ _ _ _ hm hc => move_closed hm hc)
    steps h [] hc

theorem step_close_closed (h : Hall) : (h.step .close).2.gate.closed = true := by
  simp only [step]
  split
  · rename_i hc; exact hc
  · rfl

/-- Conservation: after any run of a gate, the tickets held, the tickets sent and not yet taken, and
the free tickets add up to all of its tickets, so that never more than these are out; the queue has
at most its places; and if the gate has been closed at any time of the run, the queue is empty. -/
theorem tickets_conserved (config : Config) (steps : List Step) :
    let h := (ofConfig config).run steps
    h.held.length + h.sent.length + h.gate.free = config.maxConcurrent ∧
    h.held.length + h.sent.length ≤ config.maxConcurrent ∧
    h.gate.queue.length ≤ config.maxWaitNum ∧
    (.close ∈ steps → h.gate.queue = []) := by
  intro h
  obtain ⟨-, htick, hroom, hdis⟩ : Balanced config h := run_balanced config steps
  refine ⟨htick, by omega, hroom, fun hclose => hdis ?_⟩
  obtain ⟨before, after, rfl⟩ := List.append_of_mem hclose
  show ((ofConfig config).run (before ++ .close :: after)).gate.closed = true
  rw [run_append, run_cons]
  exact run_closed (step_close_closed _) after

end Hall
end Muster.Admission
