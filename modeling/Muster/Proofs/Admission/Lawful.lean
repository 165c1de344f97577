/-
When a sequence of notices is the record of a fair queue: `Allowed` says of one notice what must
have gone before it, and `Lawful` says it of all. A ticket goes to the head of the line and before
the deadline, a place expires at the head of the line and not before its deadline, and each wait has
one end. What follows for whole records is proved here without any gate.
-/
import Muster.Proofs.Admission.Moves

namespace Muster.Admission

/-! ## What a record says of its callers -/

/-- Where a caller stands, as its notices tell. -/
inductive Standing where
  | away
  /-- In line since a time. -/
  | inLine (since : Nat)
  | sent
  /-- Its place has expired; it was in line since a time. -/
  | late (since : Nat)
  | dismissed
deriving DecidableEq

/-- Where a caller stands after a notice of its own. -/
def Standing.after (s : Standing) (n : Notice) : Standing :=
  match n.turn with
  | .parked => .inLine n.time
  | .granted => .sent
  | .expired => match s with
    | .inLine since => .late since
    | s => s
  | .dismissed => .dismissed
  | .ended _ | .cancelled => .away

def standing (c : Nat) (log : List Notice) : Standing :=
  log.foldl (fun s n => if n.caller = c then s.after n else s) .away

/-- The notice takes its caller out of the line, if it stands there. -/
def Notice.Leaves (n : Notice) : Prop :=
  n.turn = .granted ∨ n.turn = .expired ∨ n.turn = .dismissed ∨ n.turn = .cancelled

/-- The notice is the end of a wait: its caller has its answer, or has given up. -/
def Notice.isEnd (n : Notice) : Bool :=
  match n.turn with
  | .ended _ | .cancelled => true
  | _ => false

/-- The ends of a caller's waits. -/
def ends (c : Nat) (log : List Notice) : List Notice := log.filter fun n => n.caller = c && n.isEnd

/-- The line after a notice. -/
def lineAfter (l : List Nat) (n : Notice) : List Nat :=
  match n.turn with
  | .parked => l ++ [n.caller]
  | .ended _ => l
  | _ => l.erase n.caller

/-- The callers in line, who has waited longest first. -/
def line (log : List Notice) : List Nat := log.foldl lineAfter []

theorem standing_snoc (c : Nat) (log : List Notice) (n : Notice) :
    standing c (log ++ [n]) =
      if n.caller = c then (standing c log).after n else standing c log := by
  unfold standing; rw [List.foldl_append]; rfl

theorem standing_snoc_self (log : List Notice) (n : Notice) :
    standing n.caller (log ++ [n]) = (standing n.caller log).after n := by
  rw [standing_snoc, if_pos rfl]

theorem standing_snoc_of_ne {c : Nat} (log : List Notice) {n : Notice} (h : n.caller ≠ c) :
    standing c (log ++ [n]) = standing c log := by
  rw [standing_snoc, if_neg h]

theorem line_snoc (log : List Notice) (n : Notice) :
    line (log ++ [n]) = lineAfter (line log) n := by
  unfold line; rw [List.foldl_append]; rfl

/-! ## Lawful records -/

/-- What a notice may say after what has gone before. -/
def Allowed (maxWait : Nat) (log : List Notice) (n : Notice) : Prop :=
  match n.turn with
  | .parked => standing n.caller log = .away ∧ ∀ m ∈ log, m.turn ≠ .dismissed
  | .granted => (line log).head? = some n.caller ∧ (∀ m ∈ log, m.turn ≠ .dismissed) ∧
      ∃ t, standing n.caller log = .inLine t ∧ n.time < t + maxWait
  | .expired => (line log).head? = some n.caller ∧
      ∃ t, standing n.caller log = .inLine t ∧ t + maxWait ≤ n.time
  | .dismissed => ∃ t, standing n.caller log = .inLine t
  | .ended r => (standing n.caller log = .sent ∧ r = .ok .limited) ∨
      (∃ t, standing n.caller log = .late t ∧ t + maxWait ≤ n.time ∧
        (r = .error .capacity ∨ r = .error .shutdown)) ∨
      (standing n.caller log = .dismissed ∧ r = .error .shutdown)
  | .cancelled => standing n.caller log ≠ .away

/-- A record in which every notice is allowed. -/
inductive Lawful (maxWait : Nat) : List Notice → Prop
  | nil : Lawful maxWait []
  | snoc {log : List Notice} {n : Notice} : Lawful maxWait log → Allowed maxWait log n →
      Lawful maxWait (log ++ [n])

variable {maxWait : Nat}

theorem Lawful.split {log : List Notice} (hl : Lawful maxWait log) :
    ∀ {before : List Notice} {n : Notice} {post : List Notice}, log = before ++ n :: post →
      Lawful maxWait before ∧ Allowed maxWait before n := by
  induction hl with
  | nil => intro before n post h; simp at h
  | @snoc log m hl ha ih =>
    intro before n post h
    rcases snoc_split h with ⟨rfl, rfl, rfl⟩ | ⟨post, rfl, hlog⟩
    · exact ⟨hl, ha⟩
    · exact ih hlog

theorem Lawful.left {a : List Notice} : ∀ {b : List Notice}, Lawful maxWait (a ++ b) →
    Lawful maxWait a
  | [], h => by rwa [List.append_nil] at h
  | _ :: _, h => (h.split rfl).1

/-! ## The line -/

theorem nodup_snoc {l : List Nat} {c : Nat} (h : l.Nodup) (hc : c ∉ l) : (l ++ [c]).Nodup := by
  refine List.nodup_append.2 ⟨h, by simp, fun x hx y hy => ?_⟩
  rw [List.mem_singleton] at hy
  subst hy; rintro rfl; exact hc hx

/-- The line holds those whose notices say so, and each once. -/
theorem Lawful.line_iff {log : List Notice} (hl : Lawful maxWait log) :
    (line log).Nodup ∧ ∀ c, c ∈ line log ↔ ∃ t, standing c log = .inLine t := by
  induction hl with
  | nil => exact ⟨List.nodup_nil, fun c => by simp [line, standing]⟩
  | @snoc log n hl ha ih =>
    obtain ⟨hnd, hmem⟩ := ih
    have hout : ∀ {l : List Nat}, l = (line log).erase n.caller →
        (∀ t, (standing n.caller log).after n ≠ .inLine t) →
        l.Nodup ∧ ∀ c, c ∈ l ↔ ∃ t, standing c (log ++ [n]) = .inLine t := by
      rintro l rfl hst
      refine ⟨hnd.erase _, fun c => ?_⟩
      rw [hnd.mem_erase_iff, standing_snoc, hmem]
      split
      · rename_i hc; subst hc; simp [hst]
      · rename_i hc; simp [Ne.symm hc]
    rw [line_snoc]
    unfold lineAfter
    cases ht : n.turn with
    | parked =>
      simp only [Allowed, ht] at ha
      have hnot : n.caller ∉ line log := by rw [hmem, ha.1]; simp
      refine ⟨nodup_snoc hnd hnot, fun c => ?_⟩
      rw [List.mem_append, List.mem_singleton, standing_snoc, hmem]
      split
      · rename_i hc; subst hc; simp [Standing.after, ht]
      · rename_i hc; simp [Ne.symm hc]
    | ended r =>
      refine ⟨hnd, fun c => ?_⟩
      rw [standing_snoc, hmem]
      split
      · rename_i hc; subst hc
        simp only [Allowed, ht] at ha
        rcases ha with ⟨h, -⟩ | ⟨t, h, -⟩ | ⟨h, -⟩ <;> simp [Standing.after, ht, h]
      · rfl
    | granted => exact hout rfl (by simp [Standing.after, ht])
    | expired =>
      simp only [Allowed, ht] at ha
      obtain ⟨-, t, h, -⟩ := ha
      exact hout rfl (by simp [Standing.after, ht, h])
    | dismissed => exact hout rfl (by simp [Standing.after, ht])
    | cancelled => exact hout rfl (by simp [Standing.after, ht])

/-- A notice that takes no one of `kept` out of the line leaves their order there alone. -/
theorem sublist_lineAfter {kept l : List Nat} {n : Notice} (h : kept.Sublist l)
    (hn : n.Leaves → n.caller ∉ kept) : kept.Sublist (lineAfter l n) := by
  have herase : n.Leaves → kept.Sublist (l.erase n.caller) := fun hv => by
    have := h.erase n.caller
    rwa [List.erase_of_not_mem (hn hv)] at this
  unfold lineAfter
  cases ht : n.turn with
  | parked => exact h.trans (List.sublist_append_left _ _)
  | ended r => exact h
  | granted => exact herase (.inl ht)
  | expired => exact herase (.inr (.inl ht))
  | dismissed => exact herase (.inr (.inr (.inl ht)))
  | cancelled => exact herase (.inr (.inr (.inr ht)))

theorem sublist_line {kept : List Nat} {log : List Notice} (h : kept.Sublist (line log)) :
    ∀ (more : List Notice), (∀ n ∈ more, n.Leaves → n.caller ∉ kept) →
      kept.Sublist (line (log ++ more))
  | [], _ => by rwa [List.append_nil]
  | n :: more, hm => by
    rw [List.append_cons]
    refine sublist_line ?_ more fun m hmem => hm m (List.mem_cons_of_mem _ hmem)
    rw [line_snoc]; exact sublist_lineAfter h (hm n (List.mem_cons_self ..))

theorem sublist_parked {kept : List Nat} {log : List Notice} (h : kept.Sublist (line log))
    (c t : Nat) : (kept ++ [c]).Sublist (line (log ++ [⟨t, c, .parked⟩])) := by
  rw [line_snoc]; exact h.append (List.Sublist.refl [c])

/-! ## One wait -/

/-- The notices since a caller was parked, up to its next parking. -/
def Unparked (c : Nat) (since : List Notice) : Prop :=
  ∀ n ∈ since, n.caller = c → n.turn ≠ .parked

/-- Who is not in line gets there only by parking. -/
theorem not_inLine_append {c : Nat} : ∀ {more log : List Notice}, Unparked c more →
    (∀ t, standing c log ≠ .inLine t) → ∀ t, standing c (log ++ more) ≠ .inLine t
  | [], log, _, h => by rwa [List.append_nil]
  | n :: more, log, hu, h => by
    rw [List.append_cons]
    refine not_inLine_append (fun m hm => hu m (List.mem_cons_of_mem _ hm)) fun t => ?_
    rw [standing_snoc]
    split
    · rename_i hc; subst hc
      have hp := hu n (List.mem_cons_self ..) rfl
      cases ht : n.turn with
      | parked => exact absurd ht hp
      | expired => cases hs : standing n.caller log <;> simp_all [Standing.after]
      | _ => simp [Standing.after, ht]
    · exact h t

/-- Once a wait has ended nothing is said of its caller until it parks again. -/
theorem Lawful.silent {c : Nat} : ∀ {more log : List Notice}, Lawful maxWait (log ++ more) →
    Unparked c more → standing c log = .away → ∀ n ∈ more, n.caller ≠ c
  | [], _, _, _, _ => by simp
  | n :: more, log, hl, hu, hs => by
    rw [List.append_cons] at hl
    have hc : n.caller ≠ c := by
      rintro rfl
      have hp := hu n (List.mem_cons_self ..) rfl
      obtain ⟨-, ha⟩ := hl.left.split rfl
      cases ht : n.turn <;> simp_all [Allowed]
    intro m hm
    rcases List.mem_cons.1 hm with rfl | hm
    · exact hc
    · refine Lawful.silent hl (fun k hk => hu k (List.mem_cons_of_mem _ hk)) ?_ m hm
      rw [standing_snoc_of_ne log hc, hs]

/-- Where a caller that was parked at `t` may stand while its wait has not ended. -/
def Standing.Waiting (s : Standing) (t : Nat) : Prop :=
  s = .inLine t ∨ s = .sent ∨ s = .late t ∨ s = .dismissed

/-- A wait that has not ended is the last one: its caller has not been parked again, and it stands
where its parking has brought it. -/
theorem Lawful.waiting {c t : Nat} : ∀ {more log : List Notice}, Lawful maxWait (log ++ more) →
    (standing c log).Waiting t → ends c more = [] →
    (standing c (log ++ more)).Waiting t ∧ Unparked c more
  | [], log, _, hs, _ => by rw [List.append_nil]; exact ⟨hs, by simp [Unparked]⟩
  | n :: more, log, hl, hs, he => by
    rw [List.append_cons] at hl ⊢
    obtain ⟨-, ha⟩ := hl.left.split rfl
    have hn : (standing c (log ++ [n])).Waiting t ∧ (n.caller = c → n.turn ≠ .parked) := by
      by_cases hc : n.caller = c
      · subst hc
        rw [standing_snoc_self]
        have hend : n.isEnd = false := by
          simp only [ends, List.filter_eq_nil_iff] at he
          simpa using he n (List.mem_cons_self ..)
        -- of the notices that are no end only a grant, an expiry and a dismissal are allowed here
        rcases hs with hs | hs | hs | hs <;> cases ht : n.turn <;>
          simp_all [Allowed, Standing.after, Standing.Waiting, Notice.isEnd]
      · exact ⟨by rw [standing_snoc_of_ne log hc]; exact hs, fun h => absurd h hc⟩
    have hrest : ends c more = [] := by
      simp only [ends, List.filter_eq_nil_iff] at he ⊢
      exact fun m hm => he m (List.mem_cons_of_mem _ hm)
    obtain ⟨h1, h2⟩ := Lawful.waiting hl hn.1 hrest
    refine ⟨h1, fun m hm hmc => ?_⟩
    rcases List.mem_cons.1 hm with rfl | hm
    · exact hn.2 hmc
    · exact h2 m hm hmc

theorem standing_append_of_silent {c : Nat} : ∀ {more : List Notice} (log : List Notice),
    (∀ n ∈ more, n.caller ≠ c) → standing c (log ++ more) = standing c log
  | [], log, _ => by rw [List.append_nil]
  | n :: more, log, h => by
    rw [List.append_cons, standing_append_of_silent _ fun m hm => h m (List.mem_cons_of_mem _ hm),
      standing_snoc_of_ne log (h n (List.mem_cons_self ..))]

theorem standing_parked (c t : Nat) (before : List Notice) :
    standing c (before ++ [⟨t, c, .parked⟩]) = .inLine t :=
  standing_snoc_self before ⟨t, c, .parked⟩

/-- How a wait may end. -/
def Turn.IsOutcome (u : Turn) : Prop :=
  u = .ended (.ok .limited) ∨ u = .ended (.error .capacity) ∨ u = .ended (.error .shutdown) ∨
    u = .cancelled

theorem Allowed.outcome {log : List Notice} {n : Notice} (ha : Allowed maxWait log n)
    (hn : n.isEnd = true) : n.turn.IsOutcome ∧ (standing n.caller log).after n = .away := by
  cases ht : n.turn with
  | ended r =>
    simp only [Allowed, ht] at ha
    rcases ha with ⟨-, rfl⟩ | ⟨t, -, -, rfl | rfl⟩ | ⟨-, rfl⟩ <;>
      simp [Turn.IsOutcome, Standing.after, ht]
  | cancelled => simp [Turn.IsOutcome, Standing.after, ht]
  | _ => simp [Notice.isEnd, ht] at hn

/-- One wait has one outcome: as long as it has none its caller waits, and afterwards its caller is
away. -/
theorem Lawful.outcome {c t : Nat} {before since : List Notice}
    (hl : Lawful maxWait (before ++ ⟨t, c, .parked⟩ :: since)) (hu : Unparked c since) :
    (ends c since = [] ∧ (standing c (before ++ ⟨t, c, .parked⟩ :: since)).Waiting t) ∨
    ∃ e, ends c since = [e] ∧ e.turn.IsOutcome ∧
      standing c (before ++ ⟨t, c, .parked⟩ :: since) = .away := by
  rw [List.append_cons] at hl ⊢
  have hs : (standing c (before ++ [⟨t, c, .parked⟩])).Waiting t := .inl (standing_parked c t before)
  cases he : ends c since with
  | nil => exact .inl ⟨rfl, (hl.waiting hs he).1⟩
  | cons e rest =>
    refine .inr ⟨e, ?_⟩
    obtain ⟨a, b, rfl, ha, hend, rfl⟩ := List.filter_eq_cons_iff.1 he
    simp only [Bool.and_eq_true, decide_eq_true_eq] at hend
    obtain ⟨rfl, hend⟩ := hend
    rw [← List.append_assoc] at hl ⊢
    -- the first end sends the caller away, and from then on the record is silent about it
    obtain ⟨ho, haway⟩ := (hl.split rfl).2.outcome hend
    rw [List.append_cons] at hl ⊢
    have hb := hl.silent (fun m hm => hu m (by simp [hm])) (by rw [standing_snoc_self, haway])
    refine ⟨?_, ho, ?_⟩
    · rw [List.filter_eq_nil_iff.2 fun m hm => by simp [hb m hm]]
    · rw [standing_append_of_silent _ hb, standing_snoc_self, haway]

/-- The time since which a caller is in line is the time of its latest parking. -/
theorem Lawful.since_parked {c t t' : Nat} {before since : List Notice}
    (hl : Lawful maxWait (before ++ ⟨t, c, .parked⟩ :: since)) (hu : Unparked c since)
    (hs : standing c (before ++ ⟨t, c, .parked⟩ :: since) = .inLine t' ∨
      standing c (before ++ ⟨t, c, .parked⟩ :: since) = .late t') : t' = t := by
  rcases hl.outcome hu with ⟨-, hw⟩ | ⟨-, -, -, hw⟩
  · rcases hs with hs | hs <;> rw [hs] at hw <;> simpa [Standing.Waiting] using hw
  · rcases hs with hs | hs <;> rw [hs] at hw <;> cases hw

/-- A ticket is sent before the deadline. -/
theorem Lawful.granted_lt {c t t' : Nat} {before since post : List Notice}
    (hl : Lawful maxWait (before ++ ⟨t, c, .parked⟩ :: since ++ ⟨t', c, .granted⟩ :: post))
    (hu : Unparked c since) : t' < t + maxWait := by
  obtain ⟨hl, -, -, t₀, hs, hlt⟩ := hl.split rfl
  exact hl.since_parked hu (.inl hs) ▸ hlt

/-- Who is refused after waiting is refused at or after the deadline. -/
theorem Lawful.capacity_ge {c t t' : Nat} {before since post : List Notice}
    (hl : Lawful maxWait
      (before ++ ⟨t, c, .parked⟩ :: since ++ ⟨t', c, .ended (.error .capacity)⟩ :: post))
    (hu : Unparked c since) : t + maxWait ≤ t' := by
  obtain ⟨hl, ha⟩ := hl.split rfl
  rcases ha with ⟨-, h⟩ | ⟨t₀, hs, hle, -⟩ | ⟨-, h⟩
  · cases h
  · exact hl.since_parked hu (.inr hs) ▸ hle
  · cases h

/-- First come, first served: when a ticket is sent to a caller, everyone who was parked before it
has been sent one, has expired or has given up since. -/
theorem Lawful.in_order {a b ta tb t : Nat} {before between since post : List Notice}
    (hl : Lawful maxWait (before ++ ⟨ta, a, .parked⟩ :: between ++ ⟨tb, b, .parked⟩ :: since ++
      ⟨t, b, .granted⟩ :: post)) (hu : Unparked b since) :
    ∃ n ∈ between ++ since, n.caller = a ∧
      (n.turn = .granted ∨ n.turn = .expired ∨ n.turn = .cancelled) := by
  obtain ⟨hpre, hhead, hopen, t₀, hs, -⟩ := hl.split rfl
  -- if `a` never left the line it would still stand there before `b`, who is at its head
  by_cases hleft : ∃ n ∈ between ++ since, n.Leaves ∧ n.caller = a
  · obtain ⟨n, hn, hv, hc⟩ := hleft
    refine ⟨n, hn, hc, ?_⟩
    rcases hv with hv | hv | hv | hv
    · exact .inl hv
    · exact .inr (.inl hv)
    · exact absurd hv (hopen n (by
        rcases List.mem_append.1 hn with h | h <;> simp [h]))
    · exact .inr (.inr hv)
  exfalso
  have hb : ∀ n ∈ since, n.Leaves → n.caller ≠ b := by
    rintro n hn hv rfl
    obtain ⟨s₁, s₂, rfl⟩ := List.append_of_mem hn
    refine @not_inLine_append n.caller s₂ (before ++ ⟨ta, a, .parked⟩ :: between ++
      ⟨tb, n.caller, .parked⟩ :: s₁ ++ [n]) (fun m hm => hu m (by simp [hm])) (fun t' => ?_) t₀ ?_
    · rw [standing_snoc_self]
      rcases hv with hv | hv | hv | hv <;> simp only [Standing.after, hv]
      · simp
      · split <;> simp_all
      · simp
      · simp
    · rw [← hs]; simp
  have ha : ∀ n ∈ between ++ since, n.Leaves → n.caller ≠ a :=
    fun n hn hv hc => hleft ⟨n, hn, hv, hc⟩
  have hsub : [a, b].Sublist (line (before ++ ⟨ta, a, .parked⟩ :: between ++
      ⟨tb, b, .parked⟩ :: since)) := by
    have h1 : [a].Sublist (line (before ++ [⟨ta, a, .parked⟩])) :=
      sublist_parked (List.nil_sublist _) a ta
    have h2 := sublist_line h1 between fun n hn hv => by simpa using ha n (by simp [hn]) hv
    have h3 := sublist_line (sublist_parked h2 b tb) since fun n hn hv => by
      simpa using ⟨ha n (by simp [hn]) hv, hb n hn hv⟩
    simpa using h3
  have hnd := hpre.line_iff.1
  obtain ⟨rest, hline⟩ := List.head?_eq_some_iff.1 hhead
  rw [hline] at hsub hnd
  have hab : a ≠ b := by simpa using hnd.sublist hsub
  rcases List.sublist_cons_iff.1 hsub with hrest | ⟨r, hr, -⟩
  · exact (List.nodup_cons.1 hnd).1 (hrest.subset (by simp))
  · cases hr; exact hab rfl

end Muster.Admission
