/-
What can happen at an admission controller in one step, and what a run makes known: `Move` lists every way
in which a step changes a hall together with the notices it gives, and `Hall.history` collects the notices
of a run. Every law of runs below starts from `step_move` and `run_invariant` and opens no operation of the
gate again.
-/
import Muster.Admission.Hall
import Muster.Proofs.History

namespace Muster.Admission

/-! ## Notices -/

/-- What happens to a caller that waits. -/
inductive Turn where
  | parked
  | granted
  | expired
  /-- Its place is dissolved by the closing of the gate. -/
  | dismissed
  /-- It takes the answer its wait ended with. -/
  | ended (r : Except Fault Gate.Ticket)
  | cancelled

structure Notice where
  time : Nat
  caller : Nat
  turn : Turn

def Verdict.turn : Verdict → Turn
  | granted => .granted
  | expired => .expired

namespace Gate

/-- The places of the queue whose callers have not given up. -/
def live (g : Gate) : List Waiter := g.queue.filter (!·.cancelled)

end Gate

/-- The notices of a sweep, in the order of the queue. -/
def Sweep.notices (now : Nat) (s : Sweep) : List Notice :=
  s.served.map fun p => ⟨now, p.1.caller, p.2.turn⟩

namespace Hall

/-- What a step makes known. A caller is parked by the step from which on it waits. -/
def notices (h : Hall) : Step → List Notice
  | .acquire c =>
    if !h.waits c && (h.step (.acquire c)).2.waits c then [⟨h.now, c, .parked⟩] else []
  | .park c => if !h.waits c && (h.step (.park c)).2.waits c then [⟨h.now, c, .parked⟩] else []
  | .receive c => (h.step (.receive c)).1.toList.map fun r => ⟨h.now, c, .ended r⟩
  | .abandon c => if h.waits c then [⟨h.now, c, .cancelled⟩] else []
  | .sweep => if h.gate.closed then [] else (h.gate.sweepAt h.now).notices h.now
  | .close => if h.gate.closed then [] else h.gate.live.map fun w => ⟨h.now, w.caller, .dismissed⟩
  | _ => []

/-- What a run makes known, from its beginning to its end. -/
def history (h : Hall) (steps : List Step) : List Notice :=
  Muster.history (fun h s => (h.step s).2) notices h steps

theorem run_append (h : Hall) (a b : List Step) : h.run (a ++ b) = (h.run a).run b := by
  unfold run; rw [List.foldl_append]

@[simp]
theorem run_cons (h : Hall) (s : Step) (steps : List Step) :
    h.run (s :: steps) = (h.step s).2.run steps := rfl

theorem history_append (h : Hall) (a b : List Step) :
    h.history (a ++ b) = h.history a ++ (h.run a).history b := Muster.history_append h a b

theorem history_cons (h : Hall) (s : Step) (steps : List Step) :
    h.history (s :: steps) = h.notices s ++ (h.step s).2.history steps := rfl

theorem history_singleton (h : Hall) (s : Step) : h.history [s] = h.notices s := List.append_nil _

/-! ## Who waits -/

theorem waits_iff {h : Hall} {c : Nat} :
    h.waits c = true ↔ (∃ w ∈ h.gate.live, w.caller = c) ∨ c ∈ h.sent ∨ c ∈ h.failed := by
  unfold waits Gate.live
  simp only [Bool.or_eq_true, List.any_eq_true, Bool.and_eq_true, decide_eq_true_eq,
    List.contains_iff_mem, List.mem_filter, or_assoc, and_assoc]
  constructor
  · rintro (⟨w, hw, hc, hl⟩ | h)
    · exact .inl ⟨w, hw, hl, hc⟩
    · exact .inr h
  · rintro (⟨w, hw, hl, hc⟩ | h)
    · exact .inl ⟨w, hw, hc, hl⟩
    · exact .inr h

/-- Giving up changes no place but those of the caller. -/
theorem live_cancel (g : Gate) (c : Nat) :
    (g.cancel c).live = g.live.filter fun w => w.caller ≠ c := by
  unfold Gate.live Gate.cancel
  simp only [List.filter_map, List.filter_filter]
  induction g.queue with
  | nil => rfl
  | cons w ws ih =>
    by_cases hc : w.caller = c <;> cases hw : w.cancelled <;> simp_all

/-- A caller that does not wait cannot give up. -/
theorem cancel_of_not_waits {h : Hall} {c : Nat} (hc : h.waits c = false) :
    h.gate.cancel c = h.gate := by
  have hq : ∀ w ∈ h.gate.queue, w.caller = c → w.cancelled = true := by
    intro w hw he
    cases hl : w.cancelled with
    | true => rfl
    | false =>
      have : h.waits c = true := waits_iff.2 (.inl ⟨w, List.mem_filter.2 ⟨hw, by simp [hl]⟩, he⟩)
      rw [hc] at this; cases this
  unfold Gate.cancel
  have : (h.gate.queue.map fun w => if w.caller = c then { w with cancelled := true } else w) =
      h.gate.queue := by
    -- the map touches none but places of `c`, and those are marked already
    rw [List.map_congr_left (g := id), List.map_id]
    intro w hw
    split
    · rename_i he
      rw [← hq w hw he]; rfl
    · rfl
  rw [this]

/-! ## What a step can do -/

/-- The hall `h` goes on with a step, gives notices, and is another hall then. -/
inductive Move (h : Hall) : Step → List Notice → Hall → Prop
  | stay (s : Step) : Move h s [] h
  | tick (ms : Nat) : Move h (.tick ms) [] { h with now := h.now + ms }
  | trigger : Move h .trigger [] { h with shut := true }
  /-- A free ticket of an open gate is taken. -/
  | take {s : Step} {c free : Nat} : s = .tryAcquire c ∨ s = .acquire c → h.gate.closed = false →
      h.shut = false → h.gate.free = free + 1 →
      Move h s [] { h with gate := { h.gate with free }, held := c :: h.held }
  /-- A caller that does not wait finds room in the queue of an open gate. -/
  | park {s : Step} {c : Nat} : s = .acquire c ∨ s = .park c → h.waits c = false →
      h.gate.closed = false → h.shut = false → h.gate.queue.length < h.gate.config.maxWaitNum →
      Move h s [⟨h.now, c, .parked⟩] { h with gate := { h.gate with
        queue := h.gate.queue ++ [⟨c, h.now + h.gate.config.maxWait, false⟩] } }
  | takeSent {c : Nat} : c ∈ h.sent →
      Move h (.receive c) [⟨h.now, c, .ended (.ok .limited)⟩]
        { h with sent := h.sent.erase c, held := c :: h.held }
  | takeFault {c : Nat} : c ∉ h.sent → c ∈ h.failed →
      Move h (.receive c) [⟨h.now, c, .ended (.error h.turnedAway)⟩]
        { h with failed := h.failed.erase c }
  | release {c : Nat} : c ∈ h.held →
      Move h (.release c) [] { h with held := h.held.erase c, gate := h.gate.release }
  /-- Who gives up a ticket on its way puts it back. -/
  | giveBack {c : Nat} : c ∈ h.sent →
      Move h (.abandon c) [⟨h.now, c, .cancelled⟩]
        { h with sent := h.sent.erase c, gate := h.gate.release }
  | forget {c : Nat} : c ∉ h.sent → c ∈ h.failed →
      Move h (.abandon c) [⟨h.now, c, .cancelled⟩] { h with failed := h.failed.erase c }
  | giveUp {c : Nat} : c ∉ h.sent → c ∉ h.failed → h.waits c = true →
      Move h (.abandon c) [⟨h.now, c, .cancelled⟩] { h with gate := h.gate.cancel c }
  | sweep : h.gate.closed = false →
      Move h .sweep ((h.gate.sweepAt h.now).notices h.now) { h with
        gate := h.gate.swept (h.gate.sweepAt h.now)
        sent := h.sent ++ (h.gate.sweepAt h.now).callers .granted
        failed := h.failed ++ (h.gate.sweepAt h.now).callers .expired }
  | close : h.gate.closed = false →
      Move h .close (h.gate.live.map fun w => ⟨h.now, w.caller, .dismissed⟩) { h with
        gate := h.gate.close, failed := h.failed ++ h.gate.live.map (·.caller) }

/-- An attempt without waiting takes a free ticket of an open gate, or changes nothing. -/
theorem tryAcquire_cases (g : Gate) (shut : Bool) :
    (g.closed = false ∧ shut = false ∧ ∃ free, g.free = free + 1 ∧
      g.tryAcquire shut = (.ok .limited, { g with free })) ∨
    ∃ r, r ≠ .ok .limited ∧ g.tryAcquire shut = (r, g) := by
  unfold Gate.tryAcquire
  split
  · exact .inr ⟨_, by simp, rfl⟩
  split
  · exact .inr ⟨_, by simp, rfl⟩
  rename_i hopen
  simp only [Bool.or_eq_true, not_or, Bool.not_eq_true] at hopen
  cases hf : g.free with
  | zero => exact .inr ⟨_, by simp, rfl⟩
  | succ free => exact .inl ⟨hopen.1, hopen.2, free, rfl, rfl⟩

/-- An attempt to get a place finds room in an open gate, or changes nothing. -/
theorem park_cases (g : Gate) (shut : Bool) (now c : Nat) :
    (g.closed = false ∧ shut = false ∧ g.queue.length < g.config.maxWaitNum ∧
      g.park shut now c =
        (.parked, { g with queue := g.queue ++ [⟨c, now + g.config.maxWait, false⟩] })) ∨
    ∃ f, g.park shut now c = (.done (.error f), g) := by
  unfold Gate.park
  split
  · exact .inr ⟨_, rfl⟩
  rename_i hopen
  simp only [Bool.or_eq_true, not_or, Bool.not_eq_true] at hopen
  split
  · exact .inr ⟨_, rfl⟩
  · exact .inl ⟨hopen.1, hopen.2, by omega, rfl⟩

theorem keep_of_ne {h : Hall} {c : Nat} {r : Except Fault Gate.Ticket} (hr : r ≠ .ok .limited) :
    h.keep c r = h := by
  unfold keep
  split
  · exact absurd rfl hr
  · rfl

theorem waits_of_taken {h : Hall} {c free : Nat} :
    ({ h with gate := { h.gate with free }, held := c :: h.held } : Hall).waits c = h.waits c := rfl

theorem waits_of_parked (h : Hall) (c now : Nat) :
    ({ h with gate := { h.gate with queue := h.gate.queue ++ [⟨c, now, false⟩] } } : Hall).waits c =
      true := by
  refine waits_iff.2 (.inl ⟨⟨c, now, false⟩, ?_, rfl⟩)
  exact List.mem_filter.2 ⟨List.mem_append_right _ (List.mem_singleton_self _), rfl⟩

/-- A caller that goes to the queue gets a place there, or all stays as it is. -/
theorem enter_park_cases (h : Hall) (c : Nat) :
    (h.gate.closed = false ∧ h.shut = false ∧ h.gate.queue.length < h.gate.config.maxWaitNum ∧
      (h.enter c (h.gate.park h.shut h.now c)).2 = { h with gate := { h.gate with
        queue := h.gate.queue ++ [⟨c, h.now + h.gate.config.maxWait, false⟩] } }) ∨
    (h.enter c (h.gate.park h.shut h.now c)).2 = h := by
  rcases park_cases h.gate h.shut h.now c with ⟨h1, h2, h3, h4⟩ | ⟨f, h4⟩
  · rw [h4]; exact .inl ⟨h1, h2, h3, rfl⟩
  · rw [h4]; exact .inr rfl

/-- What `acquire` does is what one of its two halves does. -/
theorem enter_acquire_cases (h : Hall) (c : Nat) :
    (h.gate.closed = false ∧ h.shut = false ∧ ∃ free, h.gate.free = free + 1 ∧
      (h.enter c (h.gate.acquire h.shut h.now c)).2 =
        { h with gate := { h.gate with free }, held := c :: h.held }) ∨
    (h.enter c (h.gate.acquire h.shut h.now c)).2 = (h.enter c (h.gate.park h.shut h.now c)).2 ∨
    (h.enter c (h.gate.acquire h.shut h.now c)).2 = h := by
  unfold Gate.acquire
  rcases tryAcquire_cases h.gate h.shut with ⟨h1, h2, free, h3, h4⟩ | ⟨r, hr, h4⟩
  · rw [h4]; exact .inl ⟨h1, h2, free, h3, rfl⟩
  · rw [h4]
    split
    · rename_i heq
      simp only [Prod.mk.injEq] at heq
      obtain ⟨rfl, rfl⟩ := heq
      split
      · exact .inr (.inl rfl)
      · exact .inr (.inr rfl)
    · rename_i heq
      simp only [Prod.mk.injEq] at heq
      obtain ⟨rfl, rfl⟩ := heq
      exact .inr (.inr (keep_of_ne hr))

theorem step_acquire (h : Hall) (c : Nat) : (h.step (.acquire c)).2 =
    if h.waits c then h else (h.enter c (h.gate.acquire h.shut h.now c)).2 := by
  show (if h.waits c then (none, h) else h.enter c (h.gate.acquire h.shut h.now c)).2 = _
  split <;> rfl

theorem step_park (h : Hall) (c : Nat) : (h.step (.park c)).2 =
    if h.waits c || !h.gate.config.hasQueue then h
    else (h.enter c (h.gate.park h.shut h.now c)).2 := by
  show (if h.waits c || !h.gate.config.hasQueue then (none, h)
    else h.enter c (h.gate.park h.shut h.now c)).2 = _
  split <;> rfl

/-- A caller that comes to the gate to wait if it must leaves all as it is, takes a ticket, or is
parked. -/
theorem arrival_cases (h : Hall) {s : Step} {c : Nat} (hs : s = .acquire c ∨ s = .park c) :
    (h.step s).2 = h ∨
    (s = .acquire c ∧ h.gate.closed = false ∧ h.shut = false ∧ ∃ free, h.gate.free = free + 1 ∧
      (h.step s).2 = { h with gate := { h.gate with free }, held := c :: h.held }) ∨
    (h.waits c = false ∧ h.gate.closed = false ∧ h.shut = false ∧
      h.gate.queue.length < h.gate.config.maxWaitNum ∧
      (h.step s).2 = { h with gate := { h.gate with
        queue := h.gate.queue ++ [⟨c, h.now + h.gate.config.maxWait, false⟩] } }) := by
  rcases hs with rfl | rfl
  · rw [step_acquire]
    split
    · exact .inl rfl
    rename_i hw
    rcases enter_acquire_cases h c with ⟨h1, h2, free, h3, h4⟩ | h4 | h4
    · exact .inr (.inl ⟨rfl, h1, h2, free, h3, h4⟩)
    · rw [h4]
      rcases enter_park_cases h c with ⟨h1, h2, h3, h5⟩ | h5
      · exact .inr (.inr ⟨Bool.not_eq_true _ ▸ hw, h1, h2, h3, h5⟩)
      · exact .inl h5
    · exact .inl h4
  · rw [step_park]
    split
    · exact .inl rfl
    rename_i hw
    simp only [Bool.or_eq_true, not_or, Bool.not_eq_true] at hw
    rcases enter_park_cases h c with ⟨h1, h2, h3, h4⟩ | h4
    · exact .inr (.inr ⟨hw.1, h1, h2, h3, h4⟩)
    · exact .inl h4

theorem arrival_move (h : Hall) {s : Step} {c : Nat} (hs : s = .acquire c ∨ s = .park c) :
    Move h s (if !h.waits c && (h.step s).2.waits c then [⟨h.now, c, .parked⟩] else [])
      (h.step s).2 := by
  rcases arrival_cases h hs with h4 | ⟨rfl, h1, h2, free, h3, h4⟩ | ⟨h0, h1, h2, h3, h4⟩
  · rw [h4, Bool.not_and_self, if_neg Bool.false_ne_true]; exact .stay s
  · rw [h4, waits_of_taken, Bool.not_and_self, if_neg Bool.false_ne_true]
    exact .take (.inr rfl) h1 h2 h3
  · rw [h4, waits_of_parked, h0, if_pos (by rfl)]; exact .park hs h0 h1 h2 h3

theorem step_tryAcquire (h : Hall) (c : Nat) : (h.step (.tryAcquire c)).2 =
    { h with gate := (h.gate.tryAcquire h.shut).2 }.keep c (h.gate.tryAcquire h.shut).1 := rfl

/-- Every step is one of the moves, with the notices that belong to it. -/
theorem step_move (h : Hall) (s : Step) : Move h s (h.notices s) (h.step s).2 := by
  cases s with
  | tick ms => exact .tick ms
  | trigger => exact .trigger
  | tryAcquire c =>
    rw [step_tryAcquire]
    rcases tryAcquire_cases h.gate h.shut with ⟨h1, h2, free, h3, h4⟩ | ⟨r, hr, h4⟩
    · rw [h4]; exact .take (.inl rfl) h1 h2 h3
    · rw [h4, keep_of_ne hr]; exact .stay _
  | acquire c => exact arrival_move h (.inl rfl)
  | park c => exact arrival_move h (.inr rfl)
  | receive c =>
    simp only [notices, step]
    split
    · rename_i hs; exact .takeSent (List.contains_iff_mem.1 hs)
    rename_i hs
    split
    · rename_i hf; exact .takeFault (by simpa using hs) (List.contains_iff_mem.1 hf)
    · exact .stay _
  | release c =>
    simp only [notices, step]
    split
    · rename_i hc; exact .release (List.contains_iff_mem.1 hc)
    · exact .stay _
  | abandon c =>
    by_cases hs : c ∈ h.sent
    · have hw : h.waits c = true := waits_iff.2 (.inr (.inl hs))
      simp only [notices, step, hw, List.contains_iff_mem.2 hs, if_true]
      exact .giveBack hs
    by_cases hf : c ∈ h.failed
    · have hw : h.waits c = true := waits_iff.2 (.inr (.inr hf))
      simp only [notices, step, hw, List.contains_iff_mem, hs, hf, if_true, if_false]
      exact .forget hs hf
    simp only [notices, step, List.contains_iff_mem, hs, hf, if_false]
    split
    · rename_i hw; exact .giveUp hs hf hw
    · rename_i hw
      rw [cancel_of_not_waits (Bool.not_eq_true _ ▸ hw)]; exact .stay _
  | sweep =>
    simp only [notices, step]
    split
    · exact .stay _
    · rename_i hc; exact .sweep (Bool.not_eq_true _ ▸ hc)
  | close =>
    simp only [notices, step]
    split
    · exact .stay _
    · rename_i hc; exact .close (Bool.not_eq_true _ ▸ hc)

/-- What every move keeps, a run keeps, together with the notices given so far. -/
theorem run_invariant {P : Hall → List Notice → Prop}
    (hmove : ∀ h s notices h' log, Move h s notices h' → P h log → P h' (log ++ notices))
    (steps : List Step) (h : Hall) (log : List Notice) (hP : P h log) :
    P (h.run steps) (log ++ h.history steps) :=
  Muster.run_invariant (fun h s log => hmove h s _ _ log (step_move h s)) steps h log hP

end Hall
end Muster.Admission
