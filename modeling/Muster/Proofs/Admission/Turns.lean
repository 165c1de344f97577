/-
An admission controller serves its queue in turn: the notices of every run are the record of a fair queue.
The proof carries one invariant along a run, `Agrees`, which says that the record so far is lawful and that
queue, tickets on their way and callers turned away are as the record tells. Main statement:
`waits_served_in_turn`.
-/
import Muster.Proofs.Admission.Conservation
import Muster.Proofs.Admission.Lawful

namespace Muster.Admission

/-! ## The invariant -/

/-- The live places of the queue are the line of the record, each with its deadline. -/
structure Queued (maxWait now : Nat) (live : List Waiter) (log : List Notice) : Prop where
  order : line log = live.map (·.caller)
  since : ∀ w ∈ live, ∃ t, standing w.caller log = .inLine t ∧ w.deadline = t + maxWait ∧ t ≤ now
  sorted : live.Pairwise fun v w => v.deadline ≤ w.deadline

/-- A caller is among those with a ticket on its way, or among those turned away, as it stands. -/
structure Placed (maxWait now : Nat) (sent failed : List Nat) (c : Nat) (s : Standing) : Prop where
  sent : c ∈ sent ↔ s = .sent
  failed : c ∈ failed ↔ (∃ t, s = .late t) ∨ s = .dismissed
  late : ∀ t, s = .late t → t + maxWait ≤ now

structure Agrees (maxWait now : Nat) (closed : Bool) (live : List Waiter) (sent failed : List Nat)
    (log : List Notice) : Prop where
  lawful : Lawful maxWait log
  queued : Queued maxWait now live log
  placed : ∀ c, Placed maxWait now sent failed c (standing c log)
  sentNodup : sent.Nodup
  failedNodup : failed.Nodup
  undissolved : closed = false → ∀ m ∈ log, m.turn ≠ .dismissed

variable {maxWait now : Nat} {closed : Bool} {live : List Waiter} {sent failed : List Nat}
  {log : List Notice} {w : Waiter} {c : Nat}

theorem Agrees.nodup (h : Agrees maxWait now closed live sent failed log) :
    (live.map (·.caller)).Nodup := h.queued.order ▸ h.lawful.line_iff.1

theorem Agrees.mem_live_iff (h : Agrees maxWait now closed live sent failed log) :
    (∃ w ∈ live, w.caller = c) ↔ ∃ t, standing c log = .inLine t := by
  rw [← h.lawful.line_iff.2, h.queued.order, List.mem_map]

/-- A caller waits unless it is away. -/
theorem Agrees.waits_iff (h : Agrees maxWait now closed live sent failed log) :
    ((∃ w ∈ live, w.caller = c) ∨ c ∈ sent ∨ c ∈ failed) ↔ standing c log ≠ .away := by
  rw [h.mem_live_iff, (h.placed c).sent, (h.placed c).failed]
  cases standing c log <;> simp

theorem agrees_nil : Agrees maxWait now closed [] [] [] [] := by
  refine ⟨.nil, ⟨rfl, by simp, by simp⟩, fun c => ⟨?_, ?_, ?_⟩, List.nodup_nil, List.nodup_nil, ?_⟩ <;>
    simp [standing]

/-- Time passes without a trace. -/
theorem Agrees.later {now' : Nat} (h : Agrees maxWait now closed live sent failed log)
    (hle : now ≤ now') : Agrees maxWait now' closed live sent failed log := by
  have hplaced : ∀ c, Placed maxWait now' sent failed c (standing c log) := fun c =>
    ⟨(h.placed c).sent, (h.placed c).failed, fun t hs => Nat.le_trans ((h.placed c).late t hs) hle⟩
  refine { h with queued := { h.queued with since := fun w hw => ?_ }, placed := hplaced }
  obtain ⟨t, h1, h2, h3⟩ := h.queued.since w hw
  exact ⟨t, h1, h2, Nat.le_trans h3 hle⟩

theorem Agrees.closing (h : Agrees maxWait now closed live sent failed log) :
    Agrees maxWait now true live sent failed log :=
  { h with undissolved := fun hc => by cases hc }

/-! ## The queue after one notice -/

/-- Who leaves the line leaves the queue. -/
theorem Queued.leave (h : Queued maxWait now live log) (hnd : (line log).Nodup) {n : Notice}
    (hn : n.Leaves) :
    Queued maxWait now (live.filter fun w => w.caller ≠ n.caller) (log ++ [n]) := by
  refine ⟨?_, fun w hw => ?_, h.sorted.filter _⟩
  · have herase : lineAfter (line log) n = (line log).erase n.caller := by
      rcases hn with hn | hn | hn | hn <;> simp only [lineAfter, hn]
    rw [line_snoc, herase, hnd.erase_eq_filter, h.order, List.filter_map]
    congr 1
    exact List.filter_congr fun w _ => by simp [bne, Bool.beq_eq_decide_eq]
  · simp only [List.mem_filter, decide_eq_true_eq] at hw
    rw [standing_snoc_of_ne log (Ne.symm hw.2)]
    exact h.since w hw.1

/-- The end of a wait that is not in line leaves the queue as it is. -/
theorem Queued.other (h : Queued maxWait now live log) {n : Notice} (hn : n.isEnd = true)
    (hc : n.caller ∉ line log) : Queued maxWait now live (log ++ [n]) := by
  refine ⟨?_, fun w hw => ?_, h.sorted⟩
  · rw [line_snoc, ← h.order]
    unfold lineAfter
    cases ht : n.turn with
    | ended r => rfl
    | cancelled => exact List.erase_of_not_mem hc
    | _ => simp [Notice.isEnd, ht] at hn
  · rw [standing_snoc_of_ne log fun he => hc (by
      rw [h.order, he]; exact List.mem_map.2 ⟨w, hw, rfl⟩)]
    exact h.since w hw

theorem filter_head (hnd : ((w :: live).map (·.caller)).Nodup) :
    ((w :: live).filter fun v => v.caller ≠ w.caller) = live := by
  rw [List.map_cons, List.nodup_cons] at hnd
  rw [List.filter_cons, if_neg (by simp)]
  refine List.filter_eq_self.2 fun v hv => ?_
  simp only [decide_eq_true_eq]
  exact fun he => hnd.1 (List.mem_map.2 ⟨v, hv, he⟩)

/-- Only the caller of a notice can change its place by it. -/
theorem placed_snoc {n : Notice} {sent' failed' : List Nat}
    (h : ∀ c, Placed maxWait now sent failed c (standing c log))
    (hsent : ∀ c, c ≠ n.caller → (c ∈ sent' ↔ c ∈ sent))
    (hfailed : ∀ c, c ≠ n.caller → (c ∈ failed' ↔ c ∈ failed))
    (hself : Placed maxWait now sent' failed' n.caller ((standing n.caller log).after n)) (c : Nat) :
    Placed maxWait now sent' failed' c (standing c (log ++ [n])) := by
  by_cases hc : n.caller = c
  · subst hc; rw [standing_snoc_self]; exact hself
  · rw [standing_snoc_of_ne log hc]
    have hc := Ne.symm hc
    exact ⟨(hsent c hc).trans (h c).sent, (hfailed c hc).trans (h c).failed, (h c).late⟩

theorem undissolved_snoc {n : Notice} (h : closed = false → ∀ m ∈ log, m.turn ≠ .dismissed)
    (hn : n.turn ≠ .dismissed) : closed = false → ∀ m ∈ log ++ [n], m.turn ≠ .dismissed := by
  intro hc m hm
  rcases List.mem_append.1 hm with hm | hm
  · exact h hc m hm
  · rw [List.mem_singleton] at hm; subst hm; exact hn

/-! ## One notice -/

theorem Agrees.park (h : Agrees maxWait now false live sent failed log)
    (hc : standing c log = .away) :
    Agrees maxWait now false (live ++ [⟨c, now + maxWait, false⟩]) sent failed
      (log ++ [⟨now, c, .parked⟩]) := by
  have hnot : ∀ w ∈ live, w.caller ≠ c := by
    rintro w hw rfl
    obtain ⟨t, hs, -⟩ := h.queued.since w hw
    rw [hc] at hs; cases hs
  have hp := h.placed c
  rw [hc] at hp
  refine ⟨h.lawful.snoc ⟨hc, h.undissolved rfl⟩, ⟨?_, ?_, ?_⟩,
    placed_snoc h.placed (fun _ _ => Iff.rfl) (fun _ _ => Iff.rfl) ?_, h.sentNodup, h.failedNodup,
    undissolved_snoc h.undissolved (by simp)⟩
  · rw [line_snoc, List.map_append, ← h.queued.order]; rfl
  · intro w hw
    rcases List.mem_append.1 hw with hw | hw
    · rw [standing_snoc_of_ne log (hnot w hw).symm]; exact h.queued.since w hw
    · rw [List.mem_singleton] at hw
      subst hw; exact ⟨now, standing_parked c now log, rfl, Nat.le_refl _⟩
  · refine List.pairwise_append.2 ⟨h.queued.sorted, by simp, fun v hv w hw => ?_⟩
    rw [List.mem_singleton] at hw
    obtain ⟨t, -, hd, hle⟩ := h.queued.since v hv
    subst hw; simp only; omega
  · exact ⟨by simp [hp.sent, Standing.after], by simp [hp.failed, Standing.after],
      by simp [Standing.after]⟩

theorem Agrees.grant (h : Agrees maxWait now false (w :: live) sent failed log)
    (hlt : now < w.deadline) :
    Agrees maxWait now false live (sent ++ [w.caller]) failed
      (log ++ [⟨now, w.caller, .granted⟩]) := by
  obtain ⟨t, hs, hd, -⟩ := h.queued.since w (List.mem_cons_self ..)
  have hp := h.placed w.caller
  rw [hs] at hp
  have hq := h.queued.leave h.lawful.line_iff.1 (n := ⟨now, w.caller, .granted⟩) (.inl rfl)
  rw [filter_head h.nodup] at hq
  refine ⟨h.lawful.snoc ⟨by rw [h.queued.order]; rfl, h.undissolved rfl, t, hs, by simp only; omega⟩,
    hq, placed_snoc h.placed (fun _ hne => by simp [hne]) (fun _ _ => Iff.rfl) ?_, ?_,
    h.failedNodup, undissolved_snoc h.undissolved (by simp)⟩
  · exact ⟨by simp [Standing.after], by simp [hp.failed, Standing.after], by simp [Standing.after]⟩
  · exact nodup_snoc h.sentNodup fun hin => absurd (hp.sent.1 hin) (by simp)

/-- The head of the line is turned away: its place has expired, or the gate is closing. -/
theorem Agrees.turnAway (h : Agrees maxWait now closed (w :: live) sent failed log) {u : Turn}
    (hu : (u = .expired ∧ w.deadline ≤ now) ∨ (u = .dismissed ∧ closed = true)) :
    Agrees maxWait now closed live sent (failed ++ [w.caller]) (log ++ [⟨now, w.caller, u⟩]) := by
  obtain ⟨t, hs, hd, -⟩ := h.queued.since w (List.mem_cons_self ..)
  have hp := h.placed w.caller
  rw [hs] at hp
  have hleaves : Notice.Leaves ⟨now, w.caller, u⟩ := by
    rcases hu with ⟨rfl, -⟩ | ⟨rfl, -⟩
    · exact .inr (.inl rfl)
    · exact .inr (.inr (.inl rfl))
  have hq := h.queued.leave h.lawful.line_iff.1 hleaves
  rw [filter_head h.nodup] at hq
  have hnd : (failed ++ [w.caller]).Nodup :=
    nodup_snoc h.failedNodup fun hin => absurd (hp.failed.1 hin) (by simp)
  have hplaced : Placed maxWait now sent (failed ++ [w.caller]) w.caller
      ((standing w.caller log).after ⟨now, w.caller, u⟩) →
      ∀ c, Placed maxWait now sent (failed ++ [w.caller]) c
        (standing c (log ++ [⟨now, w.caller, u⟩])) :=
    placed_snoc (n := ⟨now, w.caller, u⟩) h.placed (fun _ _ => Iff.rfl) (fun _ hne => by simp [hne])
  rcases hu with ⟨rfl, hle⟩ | ⟨rfl, rfl⟩
  · refine ⟨h.lawful.snoc ⟨by rw [h.queued.order]; rfl, t, hs, by simp only; omega⟩, hq, hplaced ?_,
      h.sentNodup, hnd, undissolved_snoc h.undissolved (by simp)⟩
    simp only [Standing.after, hs]
    exact ⟨by simp [hp.sent], by simp, fun t' ht' => by simp at ht'; omega⟩
  · refine ⟨h.lawful.snoc ⟨t, hs⟩, hq, hplaced ?_, h.sentNodup, hnd, fun hc => by cases hc⟩
    exact ⟨by simp [hp.sent, Standing.after], by simp [Standing.after], by simp [Standing.after]⟩

/-- A record that leaves a caller dismissed tells of a dismissal. -/
theorem Lawful.dismissed (hl : Lawful maxWait log) (hs : standing c log = .dismissed) :
    ∃ m ∈ log, m.turn = .dismissed := by
  induction hl with
  | nil => cases hs
  | @snoc log n hl ha ih =>
    by_cases hc : n.caller = c
    · subst hc
      rw [standing_snoc_self] at hs
      cases ht : n.turn with
      | dismissed => exact ⟨n, by simp, ht⟩
      | expired =>
        simp only [Allowed, ht] at ha
        obtain ⟨-, t, h, -⟩ := ha
        simp [Standing.after, ht, h] at hs
      | _ => simp [Standing.after, ht] at hs
    · rw [standing_snoc_of_ne log hc] at hs
      obtain ⟨m, hm, ht⟩ := ih hs
      exact ⟨m, List.mem_append_left _ hm, ht⟩

/-- A wait ends whose caller has left the line. -/
theorem Agrees.over (h : Agrees maxWait now closed live sent failed log) {u : Turn}
    (ha : Allowed maxWait log ⟨now, c, u⟩) (hend : Notice.isEnd ⟨now, c, u⟩ = true)
    (hout : ∀ t, standing c log ≠ .inLine t) :
    Agrees maxWait now closed live (sent.erase c) (failed.erase c) (log ++ [⟨now, c, u⟩]) := by
  have hnot : c ∉ line log := fun hc => by
    obtain ⟨t, ht⟩ := (h.lawful.line_iff.2 c).1 hc
    exact hout t ht
  have hne : u ≠ .dismissed := by rintro rfl; cases hend
  refine ⟨h.lawful.snoc ha, h.queued.other hend hnot, placed_snoc h.placed
    (fun d hd => List.mem_erase_of_ne hd) (fun d hd => List.mem_erase_of_ne hd) ?_,
    h.sentNodup.erase c, h.failedNodup.erase c,
    undissolved_snoc h.undissolved hne⟩
  rw [(ha.outcome hend).2]
  exact ⟨by simp [h.sentNodup.mem_erase_iff], by simp [h.failedNodup.mem_erase_iff], by simp⟩

theorem Agrees.overSent (h : Agrees maxWait now closed live sent failed log) (hc : c ∈ sent)
    {u : Turn} (hu : u = .ended (.ok .limited) ∨ u = .cancelled) :
    Agrees maxWait now closed live (sent.erase c) failed (log ++ [⟨now, c, u⟩]) := by
  have hs := (h.placed c).sent.1 hc
  have hnot : c ∉ failed := fun hf => by
    have := (h.placed c).failed.1 hf
    rw [hs] at this; simp at this
  have := h.over (c := c) (u := u) ?_ ?_ (by simp [hs])
  · rwa [List.erase_of_not_mem hnot] at this
  · rcases hu with rfl | rfl
    · exact .inl ⟨hs, rfl⟩
    · simp [Allowed, hs]
  · rcases hu with rfl | rfl <;> rfl

/-- Who is turned away hears so: of the closing when the gate has closed, and otherwise of the
closing or of the time that is over. -/
theorem Agrees.overFailed (h : Agrees maxWait now closed live sent failed log) (hc : c ∈ failed)
    {u : Turn} (hu : u = .ended (.error .shutdown) ∨ (u = .ended (.error .capacity) ∧ closed = false) ∨
      u = .cancelled) :
    Agrees maxWait now closed live sent (failed.erase c) (log ++ [⟨now, c, u⟩]) := by
  have hs := (h.placed c).failed.1 hc
  have hnot : c ∉ sent := fun hf => by
    rw [(h.placed c).sent.1 hf] at hs; simp at hs
  have := h.over (c := c) (u := u) ?_ ?_ (by rcases hs with ⟨t, hs⟩ | hs <;> simp [hs])
  · rwa [List.erase_of_not_mem hnot] at this
  · rcases hu with rfl | ⟨rfl, hopen⟩ | rfl
    · rcases hs with ⟨t, hs⟩ | hs
      · exact .inr (.inl ⟨t, hs, (h.placed c).late t hs, .inr rfl⟩)
      · exact .inr (.inr ⟨hs, rfl⟩)
    · rcases hs with ⟨t, hs⟩ | hs
      · exact .inr (.inl ⟨t, hs, (h.placed c).late t hs, .inl rfl⟩)
      · obtain ⟨m, hm, ht⟩ := h.lawful.dismissed hs
        exact absurd ht (h.undissolved hopen m hm)
    · rcases hs with ⟨t, hs⟩ | hs <;> simp [Allowed, hs]
  · rcases hu with rfl | ⟨rfl, -⟩ | rfl <;> rfl

theorem Agrees.giveUp (h : Agrees maxWait now closed live sent failed log)
    (hc : ∃ w ∈ live, w.caller = c) :
    Agrees maxWait now closed (live.filter fun w => w.caller ≠ c) sent failed
      (log ++ [⟨now, c, .cancelled⟩]) := by
  obtain ⟨t, hs⟩ := h.mem_live_iff.1 hc
  have hp := h.placed c
  rw [hs] at hp
  refine ⟨h.lawful.snoc (by simp [Allowed, hs]),
    h.queued.leave h.lawful.line_iff.1 (n := ⟨now, c, .cancelled⟩) (.inr (.inr (.inr rfl))),
    placed_snoc h.placed (fun _ _ => Iff.rfl) (fun _ _ => Iff.rfl) ?_, h.sentNodup, h.failedNodup,
    undissolved_snoc h.undissolved (by simp)⟩
  exact ⟨by simp [hp.sent, Standing.after], by simp [hp.failed, Standing.after],
    by simp [Standing.after]⟩

/-! ## Whole queues -/

theorem Agrees.serve : ∀ {ws : List Waiter} {sent failed : List Nat} {log : List Notice},
    Agrees maxWait now false ws sent failed log → ∀ free : Nat,
    Agrees maxWait now false (serve now free ws).waiting
      (sent ++ (serve now free ws).callers .granted) (failed ++ (serve now free ws).callers .expired)
      (log ++ (serve now free ws).notices now)
  | [], sent, failed, log, h, free => by
    simpa [Admission.serve, Sweep.callers, Sweep.notices] using h
  | w :: ws, sent, failed, log, h, free => by
    unfold Admission.serve
    split
    · rename_i hle
      have := (h.turnAway (.inl ⟨rfl, hle⟩)).serve free
      rw [callers_cons, callers_cons, if_neg (by decide), if_pos rfl]
      simpa [Sweep.notices, Verdict.turn] using this
    rename_i hlt
    split
    · simpa [Sweep.callers, Sweep.notices] using h
    · rename_i free
      have := (h.grant (Nat.lt_of_not_le hlt)).serve free
      rw [callers_cons, callers_cons, if_pos rfl, if_neg (by decide)]
      simpa [Sweep.notices, Verdict.turn] using this

theorem Agrees.dismiss : ∀ {live : List Waiter} {failed : List Nat} {log : List Notice},
    Agrees maxWait now true live sent failed log →
    Agrees maxWait now true [] sent (failed ++ live.map (·.caller))
      (log ++ live.map fun w => ⟨now, w.caller, .dismissed⟩)
  | [], failed, log, h => by simpa using h
  | w :: ws, failed, log, h => by
    have := (h.turnAway (.inr ⟨rfl, rfl⟩)).dismiss
    simpa using this

/-- In a queue in order of deadlines a sweep leaves nobody waiting whose time is over. -/
theorem serve_waiting_lt (now : Nat) : ∀ (ws : List Waiter) (free : Nat),
    ws.Pairwise (fun v w => v.deadline ≤ w.deadline) →
    ∀ w ∈ (serve now free ws).waiting, now < w.deadline
  | [], _, _ => by simp [serve]
  | v :: ws, free, hs => by
    rw [List.pairwise_cons] at hs
    unfold serve
    split
    · exact serve_waiting_lt now ws free hs.2
    rename_i hlt
    split
    · intro w hw
      rcases List.mem_cons.1 hw with rfl | hw
      · omega
      · have := hs.1 w hw; omega
    · exact serve_waiting_lt now ws _ hs.2

/-! ## Runs -/

namespace Hall

structure InTurn (config : Config) (h : Hall) (log : List Notice) : Prop where
  balanced : Balanced config h
  agrees : Agrees config.maxWait h.now h.gate.closed h.gate.live h.sent h.failed log

theorem inTurn_ofConfig (config : Config) : InTurn config (ofConfig config) [] :=
  ⟨balanced_ofConfig config, agrees_nil⟩

theorem live_swept (g : Gate) (now : Nat) :
    (g.swept (g.sweepAt now)).live = (g.sweepAt now).waiting := by
  unfold Gate.live
  refine List.filter_eq_self.2 fun w hw => ?_
  have := (serve_waiting_sublist now g.live g.free).subset hw
  exact (List.mem_filter.1 this).2

theorem live_parked (g : Gate) (c deadline : Nat) :
    Gate.live { g with queue := g.queue ++ [⟨c, deadline, false⟩] } =
      g.live ++ [⟨c, deadline, false⟩] := by
  unfold Gate.live; rw [List.filter_append]; rfl

theorem move_inTurn {config : Config} {h h' : Hall} {s : Step} {notices log : List Notice}
    (hm : Move h s notices h') (hi : InTurn config h log) : InTurn config h' (log ++ notices) := by
  refine ⟨move_balanced hm hi.balanced, ?_⟩
  have ha := hi.agrees
  cases hm with
  | stay | trigger | take | release => rw [List.append_nil]; exact ha
  | tick ms => rw [List.append_nil]; exact ha.later (Nat.le_add_right h.now ms)
  | @park _ c hs hw hc hsh hq =>
    have haway : standing c log = .away := by
      have := mt (waits_iff.2 <| ha.waits_iff.2 ·) (by rw [hw]; exact Bool.false_ne_true)
      simpa using this
    rw [hc] at ha
    simp only [live_parked]
    rw [← hi.balanced.settings] at ha ⊢
    show Agrees _ _ h.gate.closed _ _ _ _
    rw [hc]
    exact ha.park haway
  | takeSent hs => exact ha.overSent hs (.inl rfl)
  | giveBack hs => exact ha.overSent hs (.inr rfl)
  | takeFault hs hf =>
    refine ha.overFailed hf ?_
    unfold turnedAway
    cases hc : h.gate.closed <;> cases h.shut <;> simp
  | forget hs hf => exact ha.overFailed hf (.inr (.inr rfl))
  | @giveUp c hs hf hw =>
    simp only [live_cancel]
    exact ha.giveUp (by simpa [hs, hf] using waits_iff.1 hw)
  | sweep hc =>
    rw [hc] at ha
    simp only [live_swept]
    show Agrees _ _ h.gate.closed _ _ _ _
    rw [hc]
    exact ha.serve h.gate.free
  | close hc => exact ha.closing.dismiss

theorem InTurn.run {config : Config} {h : Hall} {log : List Notice} (hi : InTurn config h log)
    (steps : List Step) : InTurn config (h.run steps) (log ++ h.history steps) :=
  run_invariant (fun _ _ _ _ _ hm hi => move_inTurn hm hi) steps h log hi

/-- After a sweep nobody stands in line whose time is over. -/
theorem InTurn.lt_of_swept {config : Config} {h : Hall} {log : List Notice} {c t : Nat}
    (hi : InTurn config h log)
    (hs : standing c (log ++ h.notices .sweep) = .inLine t) : h.now < t + config.maxWait := by
  have hi' := move_inTurn (step_move h .sweep) hi
  obtain ⟨w, hw, rfl⟩ := hi'.agrees.mem_live_iff.2 ⟨t, hs⟩
  obtain ⟨t', ht', hd, -⟩ := hi'.agrees.queued.since w hw
  rw [hs] at ht'
  cases ht'
  rw [← hd]
  simp only [step] at hw
  split at hw
  · rename_i hc
    simp [Gate.live, hi.balanced.dissolved hc] at hw
  · simp only [live_swept] at hw
    exact serve_waiting_lt h.now h.gate.live h.gate.free hi.agrees.queued.sorted w hw

theorem InTurn.waits_iff {config : Config} {h : Hall} {log : List Notice} {c : Nat}
    (hi : InTurn config h log) : h.waits c = true ↔ standing c log ≠ .away :=
  Hall.waits_iff.trans hi.agrees.waits_iff

/-- A caller whose wait has brought it out of the line has its answer for the asking. -/
theorem InTurn.receive_ends {config : Config} {h : Hall} {log : List Notice} {c t : Nat}
    (hi : InTurn config h log) (hs : (standing c log).Waiting t)
    (hout : ∀ t, standing c log ≠ .inLine t) : ends c (h.notices (.receive c)) ≠ [] := by
  have hp := hi.agrees.placed c
  have hr : ∃ r, (h.step (.receive c)).1 = some r := by
    rcases hs with hs | hs | hs | hs
    · exact absurd hs (hout t)
    · exact ⟨.ok .limited, by simp [step, hp.sent.2 hs]⟩
    all_goals
      have hsent : c ∉ h.sent := by rw [hp.sent, hs]; simp
      exact ⟨.error h.turnedAway, by simp [step, hsent, hp.failed, hs]⟩
  obtain ⟨r, hr⟩ := hr
  simp [notices, hr, ends, Notice.isEnd]

theorem ends_append (c : Nat) (a b : List Notice) : ends c (a ++ b) = ends c a ++ ends c b :=
  List.filter_append ..

/-- Every wait comes to its end: a sweep after its time takes the caller out of the line, and from
then on its answer is there for it. -/
theorem InTurn.wait_ends {config : Config} {h : Hall} {log : List Notice} {c t : Nat}
    (hi : InTurn config h log) (hs : (standing c log).Waiting t) {m₁ m₂ : List Step}
    (hlate : t + config.maxWait ≤ (h.run m₁).now) :
    ends c (h.history (m₁ ++ .sweep :: m₂ ++ [.receive c])) ≠ [] := by
  intro hnone
  rw [history_append, history_append, history_cons, history_singleton, run_append, run_cons,
    ends_append, ends_append, ends_append] at hnone
  simp only [List.append_eq_nil_iff] at hnone
  -- without an end the wait goes on up to the sweep, through it, and up to the last look
  obtain ⟨⟨hn₁, hn₂, hn₃⟩, hn₄⟩ := hnone
  have h₁ := hi.run m₁
  have h₂ := move_inTurn (step_move _ .sweep) h₁
  have h₃ := h₂.run m₂
  obtain ⟨hs₁, -⟩ := h₁.agrees.lawful.waiting hs hn₁
  obtain ⟨hs₂, -⟩ := h₂.agrees.lawful.waiting hs₁ hn₂
  obtain ⟨hs₃, hu⟩ := h₃.agrees.lawful.waiting hs₂ hn₃
  -- but behind the sweep it does not go on in line, and so there is an answer at the last look
  refine h₃.receive_ends hs₃ (not_inLine_append hu fun t' ht' => ?_) hn₄
  have hlt := h₁.lt_of_swept ht'
  rw [ht'] at hs₂
  have : t' = t := by simpa [Standing.Waiting] using hs₂
  omega

/-- First come, first served, and in time. In every run of a gate a ticket is sent to a caller of the
queue only when everyone parked before it has been sent one, has expired or has given up. And of
each wait, which begins at `t` and lasts until its caller is parked again: a ticket is sent to it
only before `t + maxWait`, it is refused for want of a ticket only from then on, it has at most one
outcome and its caller waits exactly as long as it has none, and it has one for sure when a sweep
has come after its time and the caller has looked. -/
theorem waits_served_in_turn (config : Config) (steps : List Step) :
    let h := (ofConfig config).run steps
    let log := (ofConfig config).history steps
    (∀ a b ta tb t before between since post,
      log = before ++ ⟨ta, a, .parked⟩ :: between ++ ⟨tb, b, .parked⟩ :: since ++
        ⟨t, b, .granted⟩ :: post →
      Unparked b since →
      ∃ n ∈ between ++ since, n.caller = a ∧
        (n.turn = .granted ∨ n.turn = .expired ∨ n.turn = .cancelled)) ∧
    (∀ c t before since, log = before ++ ⟨t, c, .parked⟩ :: since → Unparked c since →
      (∀ t', ⟨t', c, .granted⟩ ∈ since → t' < t + config.maxWait) ∧
      (∀ t', ⟨t', c, .ended (.error .capacity)⟩ ∈ since → t + config.maxWait ≤ t') ∧
      ((ends c since = [] ∧ h.waits c = true) ∨
        ∃ e, ends c since = [e] ∧ e.turn.IsOutcome ∧ h.waits c = false) ∧
      (∀ m₁ m₂, t + config.maxWait ≤ (h.run m₁).now →
        ends c (since ++ h.history (m₁ ++ .sweep :: m₂ ++ [.receive c])) ≠ [])) := by
  intro h log
  have hi : InTurn config h log := (inTurn_ofConfig config).run steps
  have hl := hi.agrees.lawful
  refine ⟨fun a b ta tb t before between since post hlog hu => ?_,
    fun c t before since hlog hu => ⟨fun t' ht' => ?_, fun t' ht' => ?_, ?_, fun m₁ m₂ hlate => ?_⟩⟩
  · exact (hlog ▸ hl).in_order hu
  · obtain ⟨s₁, s₂, rfl⟩ := List.append_of_mem ht'
    rw [hlog, ← List.cons_append, ← List.append_assoc] at hl
    exact hl.granted_lt fun n hn => hu n (List.mem_append_left _ hn)
  · obtain ⟨s₁, s₂, rfl⟩ := List.append_of_mem ht'
    rw [hlog, ← List.cons_append, ← List.append_assoc] at hl
    exact hl.capacity_ge fun n hn => hu n (List.mem_append_left _ hn)
  · rcases (hlog ▸ hl).outcome hu with ⟨he, hw⟩ | ⟨e, he, ho, haway⟩
    · refine .inl ⟨he, hi.waits_iff.2 fun haway => ?_⟩
      rw [← hlog, haway] at hw
      simp [Standing.Waiting] at hw
    · refine .inr ⟨e, he, ho, Bool.eq_false_iff.2 fun hw => hi.waits_iff.1 hw ?_⟩
      rw [hlog, haway]
  · rw [ends_append]
    intro hnone
    rw [List.append_eq_nil_iff] at hnone
    rcases (hlog ▸ hl).outcome hu with ⟨-, hw⟩ | ⟨e, he, -⟩
    · exact hi.wait_ends (hlog ▸ hw) hlate hnone.2
    · rw [hnone.1] at he; cases he

/-- Two callers wait for the only ticket. When the second is sent it the first has given up. -/
theorem second_served_second :
    (ofConfig { maxConcurrent := 1, maxWaitNum := 2 }).history
        [.tryAcquire 0, .acquire 1, .acquire 2, .abandon 1, .release 0, .sweep] =
      [] ++ ⟨0, 1, .parked⟩ :: [] ++ ⟨0, 2, .parked⟩ :: [⟨0, 1, .cancelled⟩] ++
        ⟨0, 2, .granted⟩ :: [] ∧
    Unparked 2 [⟨0, 1, .cancelled⟩] ∧
    ∃ n ∈ [] ++ [Notice.mk 0 1 .cancelled], n.caller = 1 ∧
      (n.turn = .granted ∨ n.turn = .expired ∨ n.turn = .cancelled) := by
  have hu : Unparked 2 [⟨0, 1, .cancelled⟩] := by simp [Unparked]
  obtain ⟨hfifo, -⟩ := waits_served_in_turn { maxConcurrent := 1, maxWaitNum := 2 }
    [.tryAcquire 0, .acquire 1, .acquire 2, .abandon 1, .release 0, .sweep]
  exact ⟨rfl, hu, hfifo 1 2 0 0 0 [] [] [⟨0, 1, .cancelled⟩] [] rfl hu⟩

end Hall
end Muster.Admission
