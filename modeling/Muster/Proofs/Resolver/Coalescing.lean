/-
Triggers gather into one resolution, and none is lost. Main statement: `triggers_coalesce`. In a prompt
run, a ring that is left when a quiet period ends is heard before any time passes; the resolution takes
it, so without another ring the next one waits for its refresh; and the end of what goes on is never far.
-/
import Muster.Proofs.Resolver.Pacing

namespace Muster.Resolver

variable {d d' : Desk} {s : Step} {note : Option Note} {log : Diary} {m : Entry}
variable {config : Config} {now due r : Nat} {bell : Bell}

/-! ## Prompt runs -/

/-- Nothing is overdue, and the loop has not been stopped. -/
def Desk.OnTime (d : Desk) : Prop :=
  match d.loop.phase with
  | .waiting due | .listing _ due | .delivering _ due | .quiet due => d.now ≤ due
  | .ended => False

theorem Turn.onTime (h : Turn d s note d') (htimely : d.Timely s) (hd : d.OnTime) : d'.OnTime := by
  cases h with
  | stay | ring | miss => exact hd
  | tick ms =>
    unfold Desk.OnTime at hd
    unfold Desk.Timely Desk.Idle at htimely
    unfold Desk.OnTime
    cases hp : d.loop.phase with
    | waiting due => simp only [hp] at htimely ⊢; exact htimely.2
    | listing | delivering | quiet => simp only [hp] at htimely ⊢; exact htimely
    | ended => rw [hp] at hd; exact hd.elim
  | hear | refresh | retry | found | fail | deliver | rest => exact Nat.le_add_right ..
  | stop => exact htimely.elim

/-- A ring that a quiet period has left is there until a resolution begins, and no time passes. -/
def Kept (now : Nat) (bell : Bell) (log : Diary) : Prop :=
  Since (fun e b => e.note = .rested true → Lacks .began b →
    now = e.time ∧ bell.Left ∧ bell.stored = true) log

/-- The resolution for which a ring was left has taken it: when nothing has been asked for since,
nothing is pending. -/
def Taken (refreshInterval : Nat) (bell : Bell) (log : Diary) : Prop :=
  ∀ a e b f c, log = a ++ e :: b ++ f :: c → e.note = .rested true → Lacks .began b →
    f.note = .began → Lacks .asked c → refreshInterval = 0 ∨ bell.pending = false

theorem Turn.kept (h : Turn d s note d') (htimely : d.Timely s) (hon : d.OnTime) (hd : Sound d)
    (hpaced : d.loop.Paced d.now log) (hkept : Kept d.now d.bell log) :
    Kept d'.now d'.bell (log ++ written d.now note) := by
  cases h with
  | stay | retry | found => rwa [append_written_none]
  | tick ms =>
    rw [append_written_none]
    intro a e b heq he hlacks
    obtain ⟨-, hleft, -⟩ := hkept a e b heq he hlacks
    have hrested : e.note.isRested = true := by rw [he]; rfl
    -- the loop would have to listen, or be busy with another resolution
    unfold Desk.OnTime at hon
    unfold Desk.Timely Desk.Idle at htimely
    unfold Loop.Paced at hpaced
    cases hp : d.loop.phase with
    | waiting due =>
      simp only [hp] at htimely
      rw [hleft.1] at htimely
      cases htimely.1
    | listing | delivering | quiet =>
      simp only [hp] at hpaced
      exact absurd hlacks (hpaced.rested a e b heq hrested)
    | ended => rw [hp] at hon; exact hon.elim
  | ring =>
    refine since_concat.2 ⟨nofun, hkept.imp fun e b hb he hlacks => ?_⟩
    obtain ⟨hnow, hleft, -⟩ := hb he (lacks_concat.1 hlacks).1
    show _ ∧ d.bell.ring.2.Left ∧ _
    rw [hleft.ring]
    exact ⟨hnow, hleft, rfl⟩
  | miss delay hp hb =>
    rw [append_written_none]
    refine hkept.imp fun e b hb' he hlacks => ?_
    obtain ⟨-, hleft, hstored⟩ := hb' he hlacks
    rw [← hleft.pending, (Bell.fair_listen hb).2.2] at hstored
    cases hstored
  | hear | refresh =>
    exact since_concat.2 ⟨nofun, fun _ _ _ _ _ hlacks => absurd rfl (lacks_concat.1 hlacks).2⟩
  | fail | deliver =>
    exact since_concat.2 ⟨nofun, hkept.imp fun _ _ hb he hlacks => hb he (lacks_concat.1 hlacks).1⟩
  | rest hp =>
    refine since_concat.2 ⟨fun he _ => ⟨rfl, hd.left (by simp [Loop.isWaiting, hp]), ?_⟩,
      hkept.imp fun _ _ hb he hlacks => hb he (lacks_concat.1 hlacks).1⟩
    exact Note.rested.inj he
  | stop => exact htimely.elim

theorem Taken.of_pending (h : Taken r bell log) {bell' : Bell}
    (hpending : bell'.pending = bell.pending) : Taken r bell' log := by
  unfold Taken
  rwa [hpending]

/-- What is not the beginning of a resolution changes nothing. -/
theorem Taken.concat (h : Taken r bell log) {bell' : Bell} {n : Note} (t : Nat) (hn : n ≠ .began)
    (hpending : n ≠ .asked → bell'.pending = bell.pending) : Taken r bell' (log ++ [⟨t, n⟩]) := by
  intro a e b f c heq he hb hf hc
  rcases snoc_split heq with ⟨-, rfl, -⟩ | ⟨c, rfl, hlog⟩
  · exact absurd hf hn
  · obtain ⟨hc, hasked⟩ := lacks_concat.1 hc
    rw [hpending hasked]
    exact h a e b f c hlog he hb hf hc

theorem Turn.taken (h : Turn d s note d') (htimely : d.Timely s)
    (hpaced : d.loop.Paced d.now log) (hkept : Kept d.now d.bell log)
    (htaken : Taken d.loop.config.refreshInterval d.bell log) :
    Taken d'.loop.config.refreshInterval d'.bell (log ++ written d.now note) := by
  cases h with
  | stay | retry | found | tick => rwa [append_written_none]
  | ring => exact htaken.concat d.now (by simp) fun h => absurd rfl h
  | miss delay hp hb =>
    rw [append_written_none]
    exact htaken.of_pending (Bell.pending_listen hb)
  | hear delay hp hb =>
    intro a e b f c heq he hlacks hf hc
    rcases snoc_split heq with ⟨rfl, -, -⟩ | ⟨c, rfl, hlog⟩
    · -- the ring that was left is the one that is heard
      obtain ⟨-, hleft, hstored⟩ := hkept _ e b rfl he hlacks
      refine .inr ?_
      show d.bell.listen.2.pending = false
      simp [Bell.listen, Bell.pending, hleft.2, hstored]
    · refine (htaken a e b f c hlog he hlacks hf (lacks_concat.1 hc).1).imp_right fun hnone => ?_
      rw [Bell.pending_of_listen hb] at hnone
      cases hnone
  | refresh delay hp hdue =>
    intro a e b f c heq he hlacks hf hc
    rcases snoc_split heq with ⟨rfl, -, -⟩ | ⟨c, rfl, hlog⟩
    · -- no time has passed, so the refresh is due at once
      obtain ⟨hnow, -, -⟩ := hkept _ e b rfl he hlacks
      rw [Loop.Paced, hp] at hpaced
      have := hpaced.rested a e b rfl (by rw [he]; rfl) hlacks
      refine .inl ?_
      show d.loop.config.refreshInterval = 0
      omega
    · refine (htaken a e b f c hlog he hlacks hf (lacks_concat.1 hc).1).imp_right fun hnone => ?_
      exact d.bell.pending_leave.trans hnone
  | fail | deliver | rest => exact htaken.concat d.now (by simp) fun _ => rfl
  | stop => exact htimely.elim

/-! ## Deadlines -/

/-- The longest time from a ring to a resolution, with what a listing and the sink take at most. -/
def Config.patience (c : Config) (listDelay sinkDelay : Nat) : Nat :=
  max 1 c.maxAttempts * listDelay + sinkDelay + c.minInterval

/-- Listings and the sink take no longer than that. -/
def Step.Within (listDelay sinkDelay : Nat) : Step → Prop
  | .listen delay | .refresh delay => delay ≤ listDelay
  | .list _ delay sinkTime => delay ≤ listDelay ∧ sinkTime ≤ sinkDelay
  | _ => True

/-- When the loop waits again at the latest. -/
def Desk.limit (listDelay sinkDelay : Nat) (d : Desk) : Nat :=
  match d.loop.phase with
  | .waiting _ | .ended => d.now
  | .listing more due => due + more * listDelay + sinkDelay + d.loop.config.minInterval
  | .delivering _ due => due + d.loop.config.minInterval
  | .quiet due => due

variable {listDelay sinkDelay : Nat}

theorem Desk.OnTime.now_le_limit (h : d.OnTime) : d.now ≤ d.limit listDelay sinkDelay := by
  unfold Desk.OnTime at h
  unfold Desk.limit
  cases hp : d.loop.phase with
  | waiting | ended => exact Nat.le_refl _
  | listing | delivering | quiet => simp only [hp] at h ⊢; omega

/-- The end of what goes on is never far, and is near for what has been asked for. -/
structure Soon (listDelay sinkDelay : Nat) (d : Desk) (log : Diary) : Prop where
  limit : d.limit listDelay sinkDelay ≤ d.now + d.loop.config.patience listDelay sinkDelay
  asked : Since (fun e b => e.note = .asked → Lacks .began b →
    d.limit listDelay sinkDelay ≤ e.time + d.loop.config.patience listDelay sinkDelay) log

/-- What goes on does not end later than before. -/
theorem Soon.goOn (h : Soon listDelay sinkDelay d log) (hnote : note ≠ some .asked)
    (hlimit : d'.limit listDelay sinkDelay ≤ d.limit listDelay sinkDelay) (hnow : d.now ≤ d'.now)
    (hconfig : d'.loop.config = d.loop.config) :
    Soon listDelay sinkDelay d' (log ++ written d.now note) := by
  have hasked : Since (fun e b => e.note = .asked → Lacks .began b →
      d'.limit listDelay sinkDelay ≤ e.time + d.loop.config.patience listDelay sinkDelay) log :=
    h.asked.imp fun _ _ hb he hlacks => Nat.le_trans hlimit (hb he hlacks)
  refine ⟨?_, ?_⟩
  · rw [hconfig]
    exact Nat.le_trans hlimit (Nat.le_trans h.limit (Nat.add_le_add_right hnow _))
  · rw [hconfig]
    cases note with
    | none => rwa [append_written_none]
    | some n =>
      refine since_concat.2 ⟨fun he => absurd (congrArg some he) hnote, ?_⟩
      exact hasked.imp fun _ _ hb he hlacks => hb he (lacks_concat.1 hlacks).1

/-- A resolution begins. -/
theorem soon_resolve (d : Desk) (bell : Bell) {delay : Nat} (hdelay : delay ≤ listDelay)
    (log : Diary) (t : Nat) :
    Soon listDelay sinkDelay { d with bell, loop := d.loop.resolve d.now delay }
      (log ++ [⟨t, .began⟩]) := by
  refine ⟨?_, since_concat.2 ⟨nofun, fun _ _ _ _ _ hlacks => absurd rfl (lacks_concat.1 hlacks).2⟩⟩
  have hattempts : (d.loop.config.maxAttempts - 1) * listDelay + listDelay =
      max 1 d.loop.config.maxAttempts * listDelay := by
    rw [← Nat.succ_mul]
    congr 1
    omega
  show d.now + delay + (d.loop.config.maxAttempts - 1) * listDelay + sinkDelay +
    d.loop.config.minInterval ≤ d.now + (max 1 d.loop.config.maxAttempts * listDelay + sinkDelay +
    d.loop.config.minInterval)
  omega

theorem Turn.soon (h : Turn d s note d') (htimely : d.Timely s)
    (hwithin : s.Within listDelay sinkDelay) (hon : d.OnTime) (hd : Orderly config d log)
    (hsoon : Soon listDelay sinkDelay d log) :
    Soon listDelay sinkDelay d' (log ++ written d.now note) := by
  unfold Desk.OnTime at hon
  cases h with
  | stay | miss => exact hsoon.goOn (by simp) (Nat.le_refl _) (Nat.le_refl _) rfl
  | tick ms =>
    cases hp : d.loop.phase with
    | waiting due =>
      rw [append_written_none]
      refine ⟨?_, fun a e b heq he hlacks => ?_⟩
      · simp [Desk.limit, hp]
      · -- the loop listens, so it has nothing to hear of
        have hpending := (hd.heeded.asked a e b heq he).resolve_right fun h => h hlacks
        simp only [Desk.Timely, Desk.Idle, hp] at htimely
        rw [hd.sound.fair htimely.1] at hpending
        cases hpending
    | listing | delivering | quiet =>
      refine hsoon.goOn (by simp) ?_ (Nat.le_add_right ..) rfl
      simp only [Desk.limit, hp, Nat.le_refl]
    | ended => rw [hp] at hon; exact hon.elim
  | ring =>
    refine ⟨hsoon.limit, since_concat.2 ⟨fun _ _ => hsoon.limit, ?_⟩⟩
    exact hsoon.asked.imp fun _ _ hb he hlacks => hb he (lacks_concat.1 hlacks).1
  | hear delay => exact soon_resolve d _ hwithin log d.now
  | refresh delay => exact soon_resolve d _ hwithin log d.now
  | @retry more due contact delay sinkTime hp =>
    refine hsoon.goOn (by simp) ?_ (Nat.le_refl _) rfl
    have hdelay : delay ≤ listDelay := hwithin.1
    have hmore : (more + 1) * listDelay = more * listDelay + listDelay := Nat.succ_mul ..
    simp only [hp] at hon
    simp only [Desk.limit, hp]
    omega
  | found contact delay sinkTime set hp =>
    refine hsoon.goOn (by simp) ?_ (Nat.le_refl _) rfl
    have hdelay : sinkTime ≤ sinkDelay := hwithin.2
    simp only [hp] at hon
    simp only [Desk.limit, hp]
    omega
  | fail contact delay sinkTime hp =>
    refine hsoon.goOn (by simp) ?_ (Nat.le_refl _) rfl
    simp only [hp] at hon
    simp only [Desk.limit, Loop.quieten, hp]
    omega
  | deliver hp =>
    refine hsoon.goOn (by simp) ?_ (Nat.le_refl _) rfl
    simp only [hp] at hon
    simp only [Desk.limit, Loop.quieten, hp]
    omega
  | rest hp =>
    refine hsoon.goOn (by simp) ?_ (Nat.le_refl _) rfl
    simp only [hp] at hon
    simpa only [Desk.limit, Loop.rest, hp] using hon
  | stop => exact htimely.elim

/-! ## How a run can go on -/

/-- The office can go on, promptly and without being asked, until a resolution begins. -/
def Office.CanBegin (o : Office) : Prop :=
  ∃ steps, o.Prompt steps ∧ Lacks .asked (o.entries steps) ∧ ¬ Lacks .began (o.entries steps)

namespace Office

variable {o : Office}

theorem canBegin_of_note (htimely : o.desk.Timely s) (hnote : o.note s = some .began) : o.CanBegin := by
  have hentries : o.entries [s] = [⟨o.now, .began⟩] := by simp [entries, Muster.history, hnote, written]
  refine ⟨[s], ⟨htimely, trivial⟩, ?_, ?_⟩ <;> rw [hentries] <;> simp [Lacks]

theorem CanBegin.step (htimely : o.desk.Timely s) (hasks : o.note s ≠ some .asked)
    (h : (o.step s).2.CanBegin) : o.CanBegin := by
  obtain ⟨steps, hprompt, hasked, hbegan⟩ := h
  have hentries : o.entries (s :: steps) =
      written o.now (o.note s) ++ (o.step s).2.entries steps := rfl
  refine ⟨s :: steps, ⟨htimely, hprompt⟩, fun e he => ?_, fun hlacks => hbegan fun e he => ?_⟩
  · rcases List.mem_append.1 (hentries ▸ he) with he | he
    · exact fun hnote => hasks ((mem_written.1 he).1.trans (congrArg some hnote))
    · exact hasked e he
  · exact hlacks e (hentries ▸ List.mem_append_right _ he)

/-- Time passes until something is due. -/
theorem CanBegin.when_due (hdue : o.now ≤ due) (hidle : o.desk.Idle (due - o.now))
    (h : ∀ o' : Office, o'.now = due → o'.loop = o.loop → o'.CanBegin) : o.CanBegin := by
  refine CanBegin.step (s := .watch (.tick (due - o.now))) hidle ?_ (h _ ?_ rfl)
  · have hnote : o.note (.watch (.tick (due - o.now))) = none := Phase.turn_self ..
    rw [hnote]
    exact nofun
  · exact Nat.add_sub_of_le hdue

theorem canBegin_waiting (hp : o.loop.phase = .waiting due) (hdue : o.now ≤ due) : o.CanBegin := by
  cases hb : o.lookout.bell.listen.1 with
  | true =>
    refine canBegin_of_note (s := .listen 0) trivial ?_
    simp [note, asks, Office.step, hp, hb, Loop.resolve, Phase.turn]
  | false =>
    -- it listens, and the time of the refresh comes
    have hstep : (o.step (.listen 0)).2 = o.setBell o.lookout.bell.listen.2 := by
      simp [Office.step, hp, hb]
    refine CanBegin.step (s := .listen 0) trivial ?_ (hstep ▸ CanBegin.when_due hdue ?_ ?_)
    · simp [note, asks, hstep, setBell, Phase.turn_self]
    · simp only [Desk.Idle, desk, setBell, now, hp] at hdue ⊢
      exact ⟨(Bell.fair_listen hb).1, by omega⟩
    · intro o' hnow hloop
      have hp' : o'.loop.phase = .waiting due := hloop ▸ hp
      refine canBegin_of_note (s := .refresh 0) trivial ?_
      simp [note, asks, Office.step, hp', hnow, Loop.resolve, Phase.turn]

theorem canBegin_quiet (hp : o.loop.phase = .quiet due) (hdue : o.now ≤ due) : o.CanBegin := by
  refine CanBegin.when_due hdue ?_ fun o' hnow hloop => ?_
  · simp only [Desk.Idle, desk, hp]
    omega
  · have hp' : o'.loop.phase = .quiet due := hloop ▸ hp
    have hstep : (o'.step .rest).2 = { o' with loop := o'.loop.rest o'.now } := by
      simp [Office.step, hp', hnow]
    refine CanBegin.step (s := .rest) trivial ?_ (hstep ▸ canBegin_waiting rfl ?_)
    · simp [note, asks, hstep, hp', Loop.rest, Phase.turn]
    · exact Nat.le_add_right ..

/-- A step that ends the resolution is due, and the quiet period begins with it. -/
theorem CanBegin.when_ending (s : Step) (htimely : ∀ d : Desk, d.Timely s) (hdue : o.now ≤ due)
    (hidle : o.desk.Idle (due - o.now))
    (h : ∀ o' : Office, o'.now = due → o'.loop = o.loop → o'.note s ≠ some .asked ∧
      (o'.step s).2 = { o' with loop := o'.loop.quieten o'.now }) : o.CanBegin := by
  refine CanBegin.when_due hdue hidle fun o' hnow hloop => ?_
  obtain ⟨hasks, hstep⟩ := h o' hnow hloop
  refine CanBegin.step (htimely _) hasks (hstep ▸ canBegin_quiet rfl ?_)
  exact Nat.le_add_right ..

theorem canBegin_delivering {set : AddressSet} (hp : o.loop.phase = .delivering set due)
    (hdue : o.now ≤ due) : o.CanBegin := by
  refine CanBegin.when_ending .deliver (fun _ => trivial) hdue ?_ fun o' hnow hloop => ?_
  · simp only [Desk.Idle, desk, hp]
    omega
  · have hp' : o'.loop.phase = .delivering set due := hloop ▸ hp
    have hstep : (o'.step .deliver).2 = { o' with loop := o'.loop.quieten o'.now } := by
      simp [Office.step, hp', hnow]
    exact ⟨by simp [note, asks, hstep, hp', Loop.quieten, Phase.turn], hstep⟩

theorem canBegin_listing {more : Nat} (hp : o.loop.phase = .listing more due) (hdue : o.now ≤ due) :
    o.CanBegin := by
  refine CanBegin.when_ending (.list .broken 0 0) (fun _ => trivial) hdue ?_ fun o' hnow hloop => ?_
  · simp only [Desk.Idle, desk, hp]
    omega
  · have hp' : o'.loop.phase = .listing more due := hloop ▸ hp
    have hstep : (o'.step (.list .broken 0 0)).2 = { o' with loop := o'.loop.quieten o'.now } := by
      simp [Office.step, hp', hnow, listing, Loop.listed]
    exact ⟨by simp [note, asks, hstep, hp', Loop.quieten, Phase.turn], hstep⟩

/-- An office that is prompt can always go on to another resolution. -/
theorem canBegin (hon : o.desk.OnTime) : o.CanBegin := by
  cases hp : o.loop.phase with
  | waiting due => exact canBegin_waiting hp (by simpa only [Desk.OnTime, desk, hp] using hon)
  | listing more due => exact canBegin_listing hp (by simpa only [Desk.OnTime, desk, hp] using hon)
  | delivering set due =>
    exact canBegin_delivering hp (by simpa only [Desk.OnTime, desk, hp] using hon)
  | quiet due => exact canBegin_quiet hp (by simpa only [Desk.OnTime, desk, hp] using hon)
  | ended => simp only [Desk.OnTime, desk, hp] at hon

end Office

/-! ## Prompt runs of a service -/

/-- The desk of an office that is prompt agrees with its diary. -/
structure Punctual (config : Config) (d : Desk) (log : Diary) : Prop where
  orderly : Orderly config d log
  onTime : d.OnTime
  kept : Kept d.now d.bell log
  taken : Taken d.loop.config.refreshInterval d.bell log

theorem Turn.punctual (h : Turn d s note d') (htimely : d.Timely s) (hd : Punctual config d log) :
    Punctual config d' (log ++ written d.now note) where
  orderly := h.orderly hd.orderly
  onTime := h.onTime htimely hd.onTime
  kept := h.kept htimely hd.onTime hd.orderly.sound hd.orderly.paced hd.kept
  taken := h.taken htimely hd.orderly.paced hd.kept hd.taken

section Service

variable {capacity : Nat} {service : Registry.Service} {steps : List Step}

theorem punctual_ofService (capacity : Nat) (service : Registry.Service) (config : Config) :
    Punctual config (Office.ofService capacity service config).desk
      [(Office.ofService capacity service config).opening] where
  orderly := orderly_ofService capacity service config
  onTime := Nat.zero_le _
  kept := since_singleton.2 fun _ _ => ⟨rfl, ⟨rfl, rfl⟩, rfl⟩
  taken := by
    intro a e b f c heq
    have hlen := congrArg List.length heq
    simp at hlen
    omega

theorem Office.Prompt.punctual (h : (Office.ofService capacity service config).Prompt steps) :
    Punctual config ((Office.ofService capacity service config).run steps).desk
      ((Office.ofService capacity service config).diary steps) :=
  h.run_desk (fun hturn htimely (_ : True) hd => hturn.punctual htimely hd)
    (fun _ _ => trivial) (punctual_ofService capacity service config)

theorem Office.Prompt.soon (h : (Office.ofService capacity service config).Prompt steps)
    (hwithin : ∀ s ∈ steps, s.Within listDelay sinkDelay) :
    Soon listDelay sinkDelay ((Office.ofService capacity service config).run steps).desk
      ((Office.ofService capacity service config).diary steps) := by
  refine (h.run_desk (P := fun d log => Punctual config d log ∧ Soon listDelay sinkDelay d log)
    (fun hturn htimely hallowed hd => ⟨hturn.punctual htimely hd.1,
      hturn.soon htimely hallowed hd.1.onTime hd.1.orderly hd.2⟩) hwithin
    ⟨punctual_ofService capacity service config, Nat.le_add_right .., since_singleton.2 nofun⟩).2

/-! ## What the diary says -/

section Prompt

variable (hprompt : (Office.ofService capacity service config).Prompt steps)
include hprompt

/-- The quiet period of a resolution ends when it is due, and leaves a ring for what has been asked for
since the resolution began. -/
theorem Office.Prompt.rested {a b c : Diary} {t u : Nat} {kept : Bool}
    (h : (ofService capacity service config).diary steps =
      a ++ ⟨t, .began⟩ :: b ++ ⟨u, .rested kept⟩ :: c) (hbegan : Lacks .began b) :
    (∃ v, ⟨v, .ended⟩ ∈ b ∧ u = v + config.minInterval) ∧ (¬ Lacks .asked b → kept = true) := by
  obtain ⟨before, s, after, due, rfl, hlog, htime, hp, hdue, rfl⟩ := rested_cut h (by simp)
  have hd := Prompt.punctual hprompt.left
  have hquiet := hd.orderly.quiet hp
  have hheeded := hd.orderly.heeded
  rw [← hlog] at hquiet hheeded
  refine ⟨?_, fun hasked => ?_⟩
  · obtain ⟨e, he, hended⟩ := not_lacks.1 (hquiet.began a _ b rfl rfl)
    obtain ⟨b₁, b₂, rfl⟩ := List.append_of_mem he
    refine ⟨e.time, by rw [← hended]; exact he, ?_⟩
    have hdue' := (hquiet.ended (a ++ ⟨t, .began⟩ :: b₁) e b₂ (by simp) hended).2
      fun f hf => hbegan f (by simp [hf])
    have hon := hd.onTime
    unfold Desk.OnTime at hon
    rw [show (run _ before).desk.loop.phase = _ from hp] at hon
    rw [htime, ← hdue']
    exact Nat.le_antisymm hon hdue
  · obtain ⟨e, he, hnote⟩ := not_lacks.1 hasked
    obtain ⟨b₁, b₂, rfl⟩ := List.append_of_mem he
    have hpending := (hheeded.asked (a ++ ⟨t, .began⟩ :: b₁) e b₂ (by simp) hnote).resolve_right
      fun h => h fun f hf => hbegan f (by simp [hf])
    have hleft := hd.orderly.sound.left (by simp [Loop.isWaiting, Office.desk, hp])
    rwa [hleft.pending] at hpending

/-- A ring that the quiet period has left is heard at once. -/
theorem Office.Prompt.at_once {a b : Diary} {t : Nat}
    (h : (ofService capacity service config).diary steps = a ++ ⟨t, .rested true⟩ :: b) :
    (Lacks .began b → ((ofService capacity service config).run steps).now = t) ∧
    ∀ b₁ u b₂, b = b₁ ++ ⟨u, .began⟩ :: b₂ → Lacks .began b₁ → u = t := by
  refine ⟨fun hbegan => ((Prompt.punctual hprompt).kept a _ b h rfl hbegan).1, ?_⟩
  rintro b₁ u b₂ rfl hbegan
  rw [← List.cons_append, ← List.append_assoc] at h
  obtain ⟨before, s, after, due, rfl, hlog, htime, -⟩ := began_cut h rfl
  rw [show u = _ from htime]
  exact ((Prompt.punctual hprompt.left).kept a _ b₁ hlog.symm rfl hbegan).1

/-- Behind the resolution that a ring has led to, and without another, the next one waits for its
refresh. -/
theorem Office.Prompt.once {a b c e : Diary} {t u v : Nat}
    (h : (ofService capacity service config).diary steps =
      a ++ ⟨t, .rested true⟩ :: b ++ ⟨u, .began⟩ :: c ++ ⟨v, .began⟩ :: e) (hbegan : Lacks .began b)
    (hasked : Lacks .asked c) : ∃ w kept, ⟨w, .rested kept⟩ ∈ c ∧ w + config.refreshInterval ≤ v := by
  obtain ⟨before, s, after, due, hsteps, hlog, htime, hp, -⟩ := began_cut h rfl
  have hfree := (run_orderly capacity service config before).free hp
  rw [← hlog] at hfree
  obtain ⟨-, ⟨w, n⟩, hf, hrested⟩ := hfree.began (a ++ ⟨t, .rested true⟩ :: b) _ c rfl rfl
  obtain ⟨c₁, c₂, rfl⟩ := List.append_of_mem hf
  cases n with
  | asked | began | ended => cases hrested
  | rested kept =>
    refine ⟨w, kept, hf, ?_⟩
    have hcut : (ofService capacity service config).diary steps =
        (a ++ ⟨t, .rested true⟩ :: b ++ ⟨u, .began⟩ :: c₁) ++ ⟨w, .rested kept⟩ ::
          (c₂ ++ ⟨v, .began⟩ :: e) := by simpa using h
    cases kept with
    | false =>
      rw [← List.cons_append, ← List.append_assoc] at hcut
      exact refreshed hcut fun f hf => hasked f (List.mem_append_right _ (List.mem_cons_of_mem _ hf))
    | true =>
      -- a ring was left although nothing had been asked for: refreshes are due at once
      have hzero : config.refreshInterval = 0 := by
        obtain ⟨before, s, after, due, rfl, hlog, -, hp, -, hstored⟩ := rested_cut hcut (by simp)
        have hd := Prompt.punctual hprompt.left
        have hleft := hd.orderly.sound.left (by simp [Loop.isWaiting, Office.desk, hp])
        have htaken := hd.taken a _ b _ c₁ hlog.symm rfl hbegan rfl fun f hf =>
          hasked f (List.mem_append_left _ hf)
        rw [hd.orderly.config_eq, hleft.pending] at htaken
        exact htaken.resolve_right fun hnone => absurd (hstored.trans hnone) (by decide)
      have htimes := (run_orderly capacity service config steps).dated.times
      rw [hcut] at htimes
      rw [hzero]
      exact (List.pairwise_cons.1 (List.pairwise_append.1 htimes).2.1).1 ⟨v, .began⟩ (by simp)

/-- What is asked for is resolved before long. -/
theorem Office.Prompt.in_time (hwithin : ∀ s ∈ steps, s.Within listDelay sinkDelay) {a b : Diary}
    {t : Nat} (h : (ofService capacity service config).diary steps = a ++ ⟨t, .asked⟩ :: b)
    (hbegan : Lacks .began b) : ((ofService capacity service config).run steps).now ≤
      t + config.patience listDelay sinkDelay := by
  have hd := Prompt.punctual hprompt
  have hsoon := (Prompt.soon hprompt hwithin).asked a _ b h rfl hbegan
  rw [hd.orderly.config_eq] at hsoon
  exact Nat.le_trans hd.onTime.now_le_limit hsoon

/-- The run can go on, without being asked, until another resolution begins. -/
theorem Office.Prompt.goes_on : ∃ more log, Lacks .asked log ∧ ¬ Lacks .began log ∧
    (ofService capacity service config).Prompt (steps ++ more) ∧
    (ofService capacity service config).diary (steps ++ more) =
      (ofService capacity service config).diary steps ++ log := by
  obtain ⟨more, hmore, hasked, hbegan⟩ := canBegin (Prompt.punctual hprompt).onTime
  exact ⟨more, _, hasked, hbegan, hprompt.append hmore, diary_append _ steps more⟩

end Prompt

/-! ## The law -/

/-- Triggers gather into one resolution and none is lost, whenever they come and however resolutions end.
In every run, a resolution begins only when the one before has ended and `minInterval` is over behind
it; while one goes on no ring is on its way and at most one is kept; what has been asked for is pending
or has been followed by a resolution; and where the quiet period has left no ring and nothing is asked
for, the next resolution begins when `refreshInterval` is over behind it.

In a prompt run, in which time passes only while the loop has nothing to do and the loop is not stopped,
the quiet period ends when it is due; if anything was asked for since its resolution began, another
begins at that time, and behind it, when nothing more is asked for, the next one waits for its refresh.
While none has begun since something was asked for, no more time has passed than the resolution that
goes on and its quiet period can take; and the run can go on to another. -/
theorem triggers_coalesce (capacity : Nat) (service : Registry.Service) (config : Config)
    (steps : List Step) :
    let o := (Office.ofService capacity service config).run steps
    let diary := (Office.ofService capacity service config).diary steps
    (∀ a b c t u, diary = a ++ ⟨t, .began⟩ :: b ++ ⟨u, .began⟩ :: c →
      ¬ Lacks .ended b ∧ ∀ e ∈ b, e.note = .ended → e.time + config.minInterval ≤ u) ∧
    (o.loop.isWaiting = false → o.lookout.bell.handed = false) ∧
    (∀ a b t, diary = a ++ ⟨t, .asked⟩ :: b →
      o.lookout.bell.pending = true ∨ ∃ u, t ≤ u ∧ ⟨u, .began⟩ ∈ b) ∧
    (∀ a b c t u, diary = a ++ ⟨t, .rested false⟩ :: b ++ ⟨u, .began⟩ :: c → Lacks .asked b →
      t + config.refreshInterval ≤ u) ∧
    ((Office.ofService capacity service config).Prompt steps →
      (∀ a b c t u kept, diary = a ++ ⟨t, .began⟩ :: b ++ ⟨u, .rested kept⟩ :: c → Lacks .began b →
        (∃ v, ⟨v, .ended⟩ ∈ b ∧ u = v + config.minInterval) ∧
        (¬ Lacks .asked b →
          (Lacks .began c → o.now = u) ∧
          ∀ c₁ v c₂, c = c₁ ++ ⟨v, .began⟩ :: c₂ → Lacks .began c₁ →
            v = u ∧ ∀ d₁ w d₂, c₂ = d₁ ++ ⟨w, .began⟩ :: d₂ → Lacks .asked d₁ →
              ∃ x kept, ⟨x, .rested kept⟩ ∈ d₁ ∧ x + config.refreshInterval ≤ w)) ∧
      (∀ listDelay sinkDelay, (∀ s ∈ steps, s.Within listDelay sinkDelay) →
        ∀ a b t, diary = a ++ ⟨t, .asked⟩ :: b → Lacks .began b →
          o.now ≤ t + (max 1 config.maxAttempts * listDelay + sinkDelay + config.minInterval)) ∧
      ∃ more log, Lacks .asked log ∧ ¬ Lacks .began log ∧
        (Office.ofService capacity service config).Prompt (steps ++ more) ∧
        (Office.ofService capacity service config).diary (steps ++ more) = diary ++ log) := by
  intro o diary
  refine ⟨fun a b c t u h => Office.spaced h, fun hw => ?_, fun a b t h => Office.asked_for h,
    fun a b c t u h => Office.refreshed h, fun hprompt => ⟨fun a b c t u kept h hbegan => ?_,
    fun listDelay sinkDelay hwithin a b t h => hprompt.in_time hwithin h, hprompt.goes_on⟩⟩
  · exact ((Office.run_orderly capacity service config steps).sound.left hw).2
  · obtain ⟨hended, hkept⟩ := hprompt.rested h hbegan
    refine ⟨hended, fun hasked => ?_⟩
    obtain rfl := hkept hasked
    obtain ⟨hnow, hfirst⟩ := hprompt.at_once h
    refine ⟨hnow, ?_⟩
    rintro c₁ v c₂ rfl hbegan'
    refine ⟨hfirst c₁ v c₂ rfl hbegan', ?_⟩
    rintro d₁ w d₂ rfl hasked'
    refine hprompt.once (a := a ++ ⟨t, .began⟩ :: b) (e := d₂) (t := u) (u := v) ?_ hbegan' hasked'
    exact h.trans (by simp)

/-- A resolver is asked during its first listing, while the sink takes the addresses, and in the quiet
period. It resolves once more, when the quiet period is over, and then waits for its refresh. -/
theorem asked_three_times :
    let service : Registry.Service := { name := "orders" }
    let asked : List Step :=
      [.listen 10, .ask, .watch (.tick 10), .list .reached 10 5, .ask, .watch (.tick 5), .deliver,
       .watch (.tick 1000), .ask, .watch (.tick 2000)]
    let steps : List Step := asked ++
      [.rest, .listen 0, .list .broken 0 0, .watch (.tick 3000), .rest, .listen 0,
       .watch (.tick 30000), .refresh 0]
    (Office.ofService 1000 service {}).Prompt steps ∧
    (Office.ofService 1000 service {}).diary steps =
      [⟨0, .rested true⟩, ⟨0, .began⟩, ⟨0, .asked⟩, ⟨10, .asked⟩, ⟨15, .ended⟩, ⟨1015, .asked⟩,
       ⟨3015, .rested true⟩, ⟨3015, .began⟩, ⟨3015, .ended⟩, ⟨6015, .rested false⟩, ⟨36015, .began⟩] ∧
    (∃ x kept, ⟨x, .rested kept⟩ ∈ ([⟨3015, .ended⟩, ⟨6015, .rested false⟩] : Diary) ∧
      x + 30000 ≤ 36015) ∧
    ((Office.ofService 1000 service {}).run asked).now ≤ 0 + (max 1 3 * 10 + 5 + 3000) := by
  intro service asked steps
  have hprompt : (Office.ofService 1000 service {}).Prompt steps := by decide +kernel
  have hdiary : (Office.ofService 1000 service {}).diary steps =
      [⟨0, .rested true⟩, ⟨0, .began⟩, ⟨0, .asked⟩, ⟨10, .asked⟩, ⟨15, .ended⟩, ⟨1015, .asked⟩,
       ⟨3015, .rested true⟩, ⟨3015, .began⟩, ⟨3015, .ended⟩, ⟨6015, .rested false⟩,
       ⟨36015, .began⟩] := by
    decide +kernel
  refine ⟨hprompt, hdiary, ?_, ?_⟩
  · obtain ⟨-, -, -, -, hlaw⟩ := triggers_coalesce 1000 service {} steps
    obtain ⟨-, hafter⟩ := (hlaw hprompt).1 [⟨0, .rested true⟩]
      [⟨0, .asked⟩, ⟨10, .asked⟩, ⟨15, .ended⟩, ⟨1015, .asked⟩] _ 0 3015 true hdiary (by decide)
    exact ((hafter (by decide)).2 [] 3015 _ rfl (by decide)).2
      [⟨3015, .ended⟩, ⟨6015, .rested false⟩] 36015 [] rfl (by decide)
  · obtain ⟨-, -, -, -, hlaw⟩ := triggers_coalesce 1000 service {} asked
    refine (hlaw (by decide +kernel)).2.1 10 5 ?_ [⟨0, .rested true⟩, ⟨0, .began⟩]
      [⟨10, .asked⟩, ⟨15, .ended⟩, ⟨1015, .asked⟩] 0 (by decide +kernel) (by decide)
    simp [asked, Step.Within]

end Service

end Muster.Resolver
