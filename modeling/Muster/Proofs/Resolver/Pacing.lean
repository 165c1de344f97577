/-
The pace of a resolver. Resolutions keep their distance, whatever the loop meets with and whenever it is
asked; a ring that comes while it is at work is kept, and one at most; and what has been asked for is
pending until a resolution begins. `Orderly` says how a desk agrees with its diary, and each turn keeps it.
-/
import Muster.Proofs.Resolver.Diary

namespace Muster

/-! ## One ring at most -/

/-- A listener that waits has heard of every ring. -/
def Bell.Fair (b : Bell) : Prop := b.waiting = true → b.pending = false

/-- Nobody listens, so a ring is kept, and a second one is no other. -/
def Bell.Left (b : Bell) : Prop := b.waiting = false ∧ b.handed = false

theorem Bell.Left.pending {b : Bell} (h : b.Left) : b.pending = b.stored := by
  rw [Bell.pending, h.2, Bool.false_or]

theorem Bell.Left.ring {b : Bell} (h : b.Left) : b.ring.2 = { b with stored := true } := by
  rw [Bell.ring, h.1]
  rfl

theorem Bell.fair_ring (b : Bell) : b.ring.2.Fair := by
  unfold Bell.ring
  split
  · exact nofun
  · rename_i hw
    exact fun hw' => absurd hw' hw

theorem Bell.left_leave (b : Bell) : b.leave.Left := ⟨rfl, rfl⟩

theorem Bell.Left.fair {b : Bell} (h : b.Left) : b.Fair := fun hw => by
  rw [h.1] at hw
  cases hw

/-- What is left of the bell when a ring has been heard. -/
theorem Bell.left_listen {b : Bell} (hfair : b.Fair) (h : b.listen.1 = true) : b.listen.2.Left := by
  unfold Bell.listen at h ⊢
  split
  · rename_i hh
    refine ⟨Bool.eq_false_iff.2 fun hw => ?_, rfl⟩
    have hpending := hfair hw
    rw [Bell.pending, hh] at hpending
    cases hpending
  · rename_i hh
    split
    · exact ⟨rfl, Bool.eq_false_iff.2 hh⟩
    · rename_i hs
      rw [if_neg hh, if_neg hs] at h
      cases h

theorem Bell.pending_of_listen {b : Bell} (h : b.listen.1 = true) : b.pending = true := by
  unfold Bell.listen at h
  unfold Bell.pending
  split at h
  · rename_i hh
    rw [hh, Bool.true_or]
  · split at h
    · rename_i hs
      rw [hs, Bool.or_true]
    · cases h

/-- One who has not heard anything waits, and there was no ring. -/
theorem Bell.fair_listen {b : Bell} (h : b.listen.1 = false) :
    b.listen.2.waiting = true ∧ b.listen.2.Fair ∧ b.pending = false := by
  unfold Bell.listen at h ⊢
  unfold Bell.Fair Bell.pending
  split at h
  · cases h
  · rename_i hh
    split at h
    · cases h
    · rename_i hs
      simp [hh, hs]

namespace Resolver

variable {d d' : Desk} {s : Step} {note : Option Note} {log : Diary} {m : Entry}

/-- The loop and its bell: a ring that comes while the loop does not wait is kept, and at most one is. -/
structure Sound (d : Desk) : Prop where
  fair : d.bell.Fair
  left : d.loop.isWaiting = false → d.bell.Left

theorem Turn.sound (h : Turn d s note d') (hd : Sound d) : Sound d' := by
  obtain ⟨hfair, hleft⟩ := hd
  have goOn {loop : Loop} (hp : d.loop.isWaiting = false) : Sound { d with loop } :=
    ⟨hfair, fun _ => hleft hp⟩
  cases h with
  | stay | tick ms => exact ⟨hfair, hleft⟩
  | ring =>
    refine ⟨d.bell.fair_ring, fun hp => ?_⟩
    show d.bell.ring.2.Left
    rw [(hleft hp).ring]
    exact hleft hp
  | miss delay hp hb => exact ⟨(Bell.fair_listen hb).2.1, fun hw => by simp [Loop.isWaiting, hp] at hw⟩
  | hear delay hp hb =>
    have hl := Bell.left_listen hfair hb
    exact ⟨hl.fair, fun _ => hl⟩
  | refresh delay hp hdue => exact ⟨d.bell.left_leave.fair, fun _ => d.bell.left_leave⟩
  | stop => exact ⟨d.bell.left_leave.fair, fun _ => d.bell.left_leave⟩
  | retry contact delay sinkDelay hp | found contact delay sinkDelay set hp
  | fail contact delay sinkDelay hp | deliver hp | rest hp =>
    exact goOn (by simp [Loop.isWaiting, hp])

/-! ## The order of the notes -/

theorem Turn.now_le (h : Turn d s note d') : d.now ≤ d'.now := by
  cases h with
  | tick ms => exact Nat.le_add_right d.now ms
  | _ => exact Nat.le_refl d.now

theorem Turn.config_eq (h : Turn d s note d') : d'.loop.config = d.loop.config := by
  cases h <;> rfl

theorem mem_written {now : Nat} : m ∈ written now note ↔ note = some m.note ∧ m.time = now := by
  obtain ⟨time, n⟩ := m
  cases note <;> simp [written, and_comm, eq_comm]

/-- The diary is kept in the order of time. -/
structure Dated (now : Nat) (log : Diary) : Prop where
  past : ∀ e ∈ log, e.time ≤ now
  times : log.Pairwise fun e f => e.time ≤ f.time

theorem Turn.dated (h : Turn d s note d') (hlog : Dated d.now log) :
    Dated d'.now (log ++ written d.now note) := by
  refine ⟨fun e he => ?_, List.pairwise_append.2 ⟨hlog.times, ?_, fun e he f hf => ?_⟩⟩
  · rcases List.mem_append.1 he with he | he
    · exact Nat.le_trans (hlog.past e he) h.now_le
    · exact (mem_written.1 he).2 ▸ h.now_le
  · cases note with
    | none => exact .nil
    | some n => exact List.pairwise_singleton _ _
  · exact (mem_written.1 hf).2 ▸ hlog.past e he

/-- A quiet period is over. -/
def Note.isRested : Note → Bool
  | .rested _ => true
  | _ => false

/-- A resolution goes on. -/
structure Busy (log : Diary) : Prop where
  ended : Since (fun e b => e.note = .ended → ¬ Lacks .began b) log
  rested : Since (fun e b => e.note.isRested = true → ¬ Lacks .began b) log

/-- The quiet period behind a resolution goes on, until a time. -/
structure Quiet (config : Config) (due : Nat) (log : Diary) : Prop where
  began : Since (fun e b => e.note = .began → ¬ Lacks .ended b) log
  ended : Since (fun e b => e.note = .ended → e.time + config.minInterval ≤ due ∧
    (Lacks .began b → due = e.time + config.minInterval)) log
  rested : Since (fun e b => e.note.isRested = true → ¬ Lacks .began b) log

/-- No resolution goes on, and a refresh is due at a time. -/
structure Free (config : Config) (now due : Nat) (log : Diary) : Prop where
  began : Since (fun e b => e.note = .began → ¬ Lacks .ended b ∧ ∃ f ∈ b, f.note.isRested = true) log
  ended : Since (fun e _ => e.note = .ended → e.time + config.minInterval ≤ now) log
  rested : Since (fun e b => e.note.isRested = true → Lacks .began b →
    due = e.time + config.refreshInterval) log

/-- The phase of the loop agrees with the diary. -/
def Loop.Paced (l : Loop) (now : Nat) (log : Diary) : Prop :=
  match l.phase with
  | .listing .. | .delivering .. => Busy log
  | .quiet due => Quiet l.config due log
  | .waiting due => Free l.config now due log
  | .ended => True

variable {config : Config} {now due : Nat}

theorem Busy.asked (h : Busy log) (t : Nat) : Busy (log ++ [⟨t, .asked⟩]) where
  ended := by simpa [since_concat, lacks_concat] using h.ended
  rested := by simpa [since_concat, lacks_concat, Note.isRested] using h.rested

theorem Quiet.asked (h : Quiet config due log) (t : Nat) :
    Quiet config due (log ++ [⟨t, .asked⟩]) where
  began := by simpa [since_concat, lacks_concat] using h.began
  ended := by simpa [since_concat, lacks_concat] using h.ended
  rested := by simpa [since_concat, lacks_concat, Note.isRested] using h.rested

theorem Free.asked (h : Free config now due log) (t : Nat) :
    Free config now due (log ++ [⟨t, .asked⟩]) where
  began := by simpa [since_concat, lacks_concat, Note.isRested] using h.began
  ended := by simpa [since_concat] using h.ended
  rested := by simpa [since_concat, lacks_concat, Note.isRested] using h.rested

/-- What has begun is not over. -/
theorem busy_began (log : Diary) (t : Nat) : Busy (log ++ [⟨t, .began⟩]) where
  ended := since_not_lacks (· = .ended) log t nofun
  rested := since_not_lacks (·.isRested = true) log t nofun

/-- The quiet period begins with the end of a resolution. -/
theorem Busy.quiet (h : Busy log) (config : Config) (hpast : ∀ e ∈ log, e.time ≤ now) :
    Quiet config (now + config.minInterval) (log ++ [⟨now, .ended⟩]) where
  began := since_not_lacks (· = .began) log now nofun
  ended := by
    refine since_concat.2 ⟨fun _ => ⟨Nat.le_refl _, fun _ => rfl⟩, fun a e b heq he => ⟨?_, ?_⟩⟩
    · exact Nat.add_le_add_right (hpast e (by simp [heq])) _
    · exact fun hlacks => absurd (lacks_concat.1 hlacks).1 (h.ended a e b heq he)
  rested := by simpa [since_concat, lacks_concat, Note.isRested] using h.rested

/-- Behind the quiet period the loop waits. -/
theorem Quiet.free (h : Quiet config due log) (hdue : due ≤ now) (kept : Bool) :
    Free config now (now + config.refreshInterval) (log ++ [⟨now, .rested kept⟩]) where
  began := by
    refine since_concat.2 ⟨nofun, h.began.imp fun e b hb he => ⟨?_, ?_⟩⟩
    · exact fun hlacks => hb he (lacks_concat.1 hlacks).1
    · exact ⟨_, List.mem_append_right _ (List.mem_singleton.2 rfl), rfl⟩
  ended := since_concat.2 ⟨nofun, h.ended.imp fun _ _ hb he => Nat.le_trans (hb he).1 hdue⟩
  rested := since_concat.2 ⟨fun _ _ => rfl, h.rested.imp fun _ _ hb he hlacks =>
    absurd (lacks_concat.1 hlacks).1 (hb he)⟩

theorem Loop.Paced.later {l : Loop} {now' : Nat} (h : l.Paced now log) (hle : now ≤ now') :
    l.Paced now' log := by
  cases hp : l.phase with
  | waiting due =>
    simp only [Loop.Paced, hp] at h ⊢
    exact { h with ended := h.ended.imp fun _ _ hb he => Nat.le_trans (hb he) hle }
  | listing | delivering | quiet => simpa only [Loop.Paced, hp] using h
  | ended => rw [Loop.Paced, hp]; trivial

theorem Loop.Paced.asked {l : Loop} (h : l.Paced now log) (t : Nat) :
    l.Paced now (log ++ [⟨t, .asked⟩]) := by
  cases hp : l.phase with
  | listing | delivering => simp only [Loop.Paced, hp] at h ⊢; exact Busy.asked h t
  | quiet due => simp only [Loop.Paced, hp] at h ⊢; exact Quiet.asked h t
  | waiting due => simp only [Loop.Paced, hp] at h ⊢; exact Free.asked h t
  | ended => rw [Loop.Paced, hp]; trivial

theorem Turn.paced (h : Turn d s note d') (hpast : ∀ e ∈ log, e.time ≤ d.now)
    (hd : d.loop.Paced d.now log) : d'.loop.Paced d'.now (log ++ written d.now note) := by
  cases h with
  | stay | miss => rwa [append_written_none]
  | tick ms =>
    rw [append_written_none]
    exact hd.later (Nat.le_add_right ..)
  | ring => exact hd.asked d.now
  | hear delay => exact busy_began log d.now
  | refresh delay => exact busy_began log d.now
  | retry contact delay sinkDelay hp =>
    rw [Loop.Paced, hp] at hd
    rwa [append_written_none]
  | found contact delay sinkDelay set hp =>
    rw [Loop.Paced, hp] at hd
    rwa [append_written_none]
  | fail contact delay sinkDelay hp =>
    rw [Loop.Paced, hp] at hd
    exact Busy.quiet hd _ hpast
  | deliver hp =>
    rw [Loop.Paced, hp] at hd
    exact Busy.quiet hd _ hpast
  | rest hp hdue =>
    rw [Loop.Paced, hp] at hd
    exact Quiet.free hd hdue _
  | stop => trivial

/-! ## Rings -/

/-- The bell agrees with the diary. What has been asked for since the latest resolution began is pending.
Behind a quiet period that has left no ring, when nothing has been asked for, nothing is pending before a
resolution begins, and that is when a refresh is due. -/
structure Heeded (refreshInterval now : Nat) (bell : Bell) (log : Diary) : Prop where
  asked : Since (fun e b => e.note = .asked → bell.pending = true ∨ ¬ Lacks .began b) log
  unasked : Since (fun e b => e.note = .rested false → Lacks .asked b → Lacks .began b →
    bell.pending = false) log
  refreshed : Since (fun e b => e.note = .rested false → Lacks .asked b → ¬ Lacks .began b →
    e.time + refreshInterval ≤ now) log

variable {r : Nat} {bell : Bell}

theorem Heeded.later (h : Heeded r now bell log) {now' : Nat} {bell' : Bell} (hle : now ≤ now')
    (hpending : bell'.pending = bell.pending) : Heeded r now' bell' log where
  asked := by rw [hpending]; exact h.asked
  unasked := by rw [hpending]; exact h.unasked
  refreshed := h.refreshed.imp fun _ _ hb he hasked hbegan => Nat.le_trans (hb he hasked hbegan) hle

theorem heeded_ring (r now : Nat) (bell : Bell) (log : Diary) (t : Nat) :
    Heeded r now bell.ring.2 (log ++ [⟨t, .asked⟩]) where
  asked := fun _ _ _ _ _ => .inl bell.pending_ring
  unasked := since_concat.2 ⟨nofun, fun _ _ _ _ _ hasked => absurd rfl (lacks_concat.1 hasked).2⟩
  refreshed := since_concat.2 ⟨nofun, fun _ _ _ _ _ hasked => absurd rfl (lacks_concat.1 hasked).2⟩

theorem Heeded.ended (h : Heeded r now bell log) (t : Nat) :
    Heeded r now bell (log ++ [⟨t, .ended⟩]) where
  asked := by simpa [since_concat, lacks_concat] using h.asked
  unasked := by simpa [since_concat, lacks_concat] using h.unasked
  refreshed := by simpa [since_concat, lacks_concat] using h.refreshed

theorem Heeded.rest (h : Heeded r now bell log) (hleft : bell.Left) (t : Nat) :
    Heeded r now bell (log ++ [⟨t, .rested bell.stored⟩]) where
  asked := by simpa [since_concat, lacks_concat] using h.asked
  unasked := by
    refine since_concat.2 ⟨fun hkept _ _ => ?_, by simpa [lacks_concat] using h.unasked⟩
    rw [hleft.pending]
    exact Note.rested.inj hkept
  refreshed := by simpa [since_concat, lacks_concat, lacks_nil] using h.refreshed

/-- A resolution begins, which is what all rings have been for. -/
theorem Heeded.begin (h : Heeded r now bell log) (bell' : Bell) (t : Nat)
    (hdue : Since (fun e b => e.note = .rested false → Lacks .asked b → Lacks .began b →
      e.time + r ≤ now) log) : Heeded r now bell' (log ++ [⟨t, .began⟩]) where
  asked := (since_not_lacks (n := .began) (· = .asked) log t nofun).imp fun _ _ hb he => .inr (hb he)
  unasked := since_concat.2 ⟨nofun, fun _ _ _ _ _ _ hbegan => absurd rfl (lacks_concat.1 hbegan).2⟩
  refreshed := by
    refine since_concat.2 ⟨nofun, fun a e b heq he hasked _ => ?_⟩
    have hasked := (lacks_concat.1 hasked).1
    by_cases hbegan : Lacks .began b
    · exact hdue a e b heq he hasked hbegan
    · exact h.refreshed a e b heq he hasked hbegan

theorem Turn.heeded (h : Turn d s note d') (hd : Sound d) (hpaced : d.loop.Paced d.now log)
    (hheeded : Heeded d.loop.config.refreshInterval d.now d.bell log) :
    Heeded d'.loop.config.refreshInterval d'.now d'.bell (log ++ written d.now note) := by
  have hsame {now' : Nat} {bell' : Bell} (hle : d.now ≤ now')
      (hpending : bell'.pending = d.bell.pending) :
      Heeded d.loop.config.refreshInterval now' bell' (log ++ written d.now none) := by
    rw [append_written_none]
    exact hheeded.later hle hpending
  cases h with
  | stay => exact hsame (Nat.le_refl _) rfl
  | tick ms => exact hsame (Nat.le_add_right ..) rfl
  | ring => exact heeded_ring _ d.now d.bell log d.now
  | miss delay hp hb => exact hsame (Nat.le_refl _) (Bell.pending_listen hb)
  | hear delay hp hb =>
    refine hheeded.begin _ d.now (hheeded.unasked.imp fun e b hb' he hasked hbegan => ?_)
    -- a ring has been heard, so one was pending
    have hnone := hb' he hasked hbegan
    rw [Bell.pending_of_listen hb] at hnone
    cases hnone
  | refresh delay hp hdue =>
    rw [Loop.Paced, hp] at hpaced
    refine hheeded.begin _ d.now (hpaced.rested.imp fun e b hb he _ hbegan => ?_)
    exact hb (by rw [he]; rfl) hbegan ▸ hdue
  | retry | found => exact hsame (Nat.le_refl _) rfl
  | fail | deliver => exact hheeded.ended d.now
  | rest hp => exact hheeded.rest (hd.left (by simp [Loop.isWaiting, hp])) d.now
  | stop => exact hsame (Nat.le_refl _) d.bell.pending_leave

/-! ## Every run -/

/-- The desk of an office agrees with its diary. -/
structure Orderly (config : Config) (d : Desk) (log : Diary) : Prop where
  config_eq : d.loop.config = config
  sound : Sound d
  dated : Dated d.now log
  paced : d.loop.Paced d.now log
  heeded : Heeded d.loop.config.refreshInterval d.now d.bell log

theorem Turn.orderly (h : Turn d s note d') (hd : Orderly config d log) :
    Orderly config d' (log ++ written d.now note) where
  config_eq := h.config_eq.trans hd.config_eq
  sound := h.sound hd.sound
  dated := h.dated hd.dated
  paced := h.paced hd.dated.past hd.paced
  heeded := h.heeded hd.sound hd.paced hd.heeded

theorem orderly_ofService (capacity : Nat) (service : Registry.Service) (config : Config) :
    Orderly config (Office.ofService capacity service config).desk
      [(Office.ofService capacity service config).opening] where
  config_eq := rfl
  sound := ⟨nofun, fun _ => ⟨rfl, rfl⟩⟩
  dated := ⟨List.forall_mem_singleton.2 (Nat.le_refl _), List.pairwise_singleton _ _⟩
  paced := ⟨since_singleton.2 nofun, since_singleton.2 nofun,
    since_singleton.2 fun _ _ => (Nat.zero_add _).symm⟩
  heeded := ⟨since_singleton.2 nofun, since_singleton.2 nofun, since_singleton.2 nofun⟩

theorem Office.run_orderly (capacity : Nat) (service : Registry.Service) (config : Config)
    (steps : List Step) : Orderly config ((ofService capacity service config).run steps).desk
      ((ofService capacity service config).diary steps) :=
  run_desk (fun h hd => h.orderly hd) _ (orderly_ofService capacity service config) steps

section Service

variable {capacity : Nat} {service : Registry.Service} {steps : List Step}

/-! ## What the diary says -/

theorem Turn.of_began (h : Turn d s (some .began) d') :
    ∃ due, d.loop.phase = .waiting due ∧ (d.bell.pending = true ∨ due ≤ d.now) := by
  cases h with
  | hear delay hp hb => exact ⟨_, hp, .inl (Bell.pending_of_listen hb)⟩
  | refresh delay hp hdue => exact ⟨_, hp, .inr hdue⟩

theorem Turn.of_rested {kept : Bool} (h : Turn d s (some (.rested kept)) d') :
    ∃ due, d.loop.phase = .quiet due ∧ due ≤ d.now ∧ kept = d.bell.stored := by
  cases h with
  | rest hp hdue => exact ⟨_, hp, hdue, rfl⟩

theorem Orderly.free (h : Orderly config d log) (hp : d.loop.phase = .waiting due) :
    Free config d.now due log := by
  have hpaced := h.paced
  rw [Loop.Paced, hp] at hpaced
  exact h.config_eq ▸ hpaced

theorem Orderly.quiet (h : Orderly config d log) (hp : d.loop.phase = .quiet due) :
    Quiet config due log := by
  have hpaced := h.paced
  rw [Loop.Paced, hp] at hpaced
  exact h.config_eq ▸ hpaced

/-- Where a resolution begins, the office waits, and has been rung for or a refresh is due. -/
theorem Office.began_cut {o : Office} {a b : Diary} {e : Entry} (h : o.diary steps = a ++ e :: b)
    (he : e.note = .began) : ∃ before s after due, steps = before ++ s :: after ∧
      a = o.diary before ∧ e.time = (o.run before).now ∧ (o.run before).loop.phase = .waiting due ∧
      ((o.run before).lookout.bell.pending = true ∨ due ≤ (o.run before).now) := by
  rcases diary_cut h with ⟨-, rfl⟩ | ⟨before, s, after, hsteps, ha, htime, hnote⟩
  · cases he
  · have hturn := (o.run before).step_turn s
    rw [hnote, he] at hturn
    obtain ⟨due, hp, hcause⟩ := hturn.of_began
    exact ⟨before, s, after, due, hsteps, ha, htime, hp, hcause⟩

/-- Where a quiet period ends, it was due to, and the ring is left that was kept. -/
theorem Office.rested_cut {o : Office} {a b : Diary} {t : Nat} {kept : Bool}
    (h : o.diary steps = a ++ ⟨t, .rested kept⟩ :: b) (ha : a ≠ []) : ∃ before s after due,
      steps = before ++ s :: after ∧ a = o.diary before ∧ t = (o.run before).now ∧
      (o.run before).loop.phase = .quiet due ∧ due ≤ (o.run before).now ∧
      kept = (o.run before).lookout.bell.stored := by
  rcases diary_cut h with ⟨hnil, -⟩ | ⟨before, s, after, hsteps, hlog, htime, hnote⟩
  · exact absurd hnil ha
  · have hturn := (o.run before).step_turn s
    rw [hnote] at hturn
    obtain ⟨due, hp, hdue, hstored⟩ := hturn.of_rested
    exact ⟨before, s, after, due, hsteps, hlog, htime, hp, hdue, hstored⟩

theorem Office.spaced {a b c : Diary} {t u : Nat}
    (h : (ofService capacity service config).diary steps = a ++ ⟨t, .began⟩ :: b ++ ⟨u, .began⟩ :: c) :
    ¬ Lacks .ended b ∧ ∀ e ∈ b, e.note = .ended → e.time + config.minInterval ≤ u := by
  obtain ⟨before, s, after, due, -, hlog, htime, hp, -⟩ := began_cut h rfl
  have hfree := (run_orderly capacity service config before).free hp
  rw [← hlog] at hfree
  refine ⟨(hfree.began a _ b rfl rfl).1, fun e he hended => ?_⟩
  obtain ⟨b₁, b₂, rfl⟩ := List.append_of_mem he
  rw [show u = _ from htime]
  exact hfree.ended (a ++ ⟨t, .began⟩ :: b₁) e b₂ (by simp) hended

/-- Where nothing was kept and nothing is asked for, a resolution waits for its refresh. -/
theorem Office.refreshed {a b c : Diary} {t u : Nat}
    (h : (ofService capacity service config).diary steps =
      a ++ ⟨t, .rested false⟩ :: b ++ ⟨u, .began⟩ :: c) (hasked : Lacks .asked b) :
    t + config.refreshInterval ≤ u := by
  obtain ⟨before, s, after, due, -, hlog, htime, hp, hcause⟩ := began_cut h rfl
  have hd := run_orderly capacity service config before
  have hfree := hd.free hp
  have hheeded := hd.heeded
  rw [hd.config_eq] at hheeded
  rw [← hlog] at hfree hheeded
  rw [show u = _ from htime]
  by_cases hbegan : Lacks .began b
  · have hdue := hfree.rested a _ b rfl rfl hbegan
    refine hdue ▸ hcause.resolve_left fun hpending => ?_
    have hnone : (run _ before).lookout.bell.pending = false := hheeded.unasked a _ b rfl rfl hasked hbegan
    rw [hpending] at hnone
    cases hnone
  · exact hheeded.refreshed a _ b rfl rfl hasked hbegan

/-- What is asked for is pending until a resolution begins. -/
theorem Office.asked_for {a b : Diary} {t : Nat}
    (h : (ofService capacity service config).diary steps = a ++ ⟨t, .asked⟩ :: b) :
    ((ofService capacity service config).run steps).lookout.bell.pending = true ∨
      ∃ u, t ≤ u ∧ ⟨u, .began⟩ ∈ b := by
  have hd := run_orderly capacity service config steps
  refine (hd.heeded.asked a _ b h rfl).imp_right fun hbegan => ?_
  obtain ⟨e, he, hnote⟩ := not_lacks.1 hbegan
  have htimes := hd.dated.times
  rw [h] at htimes
  have hle : t ≤ e.time :=
    (List.pairwise_cons.1 (List.pairwise_append.1 htimes).2.1).1 e he
  exact ⟨e.time, hle, by rw [← hnote]; exact he⟩

end Service

end Resolver
end Muster
