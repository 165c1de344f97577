/-
Which mutations the watch loop rings for. While it stands at a place in the sequence of mutations
everything from there on is heard and rung for in the end. A failed poll costs it the place, and it
finds a new one only when its next poll begins: what is committed during the rest in between is rung
for only by what comes after. Main statement: `unrung_iff`.
-/
import Muster.Proofs.Watch.Moves

namespace Muster.Watch

/-! ## What the marks say -/

/-- The mutations that have been committed. -/
def committed (log : List Mark) : List Event :=
  log.filterMap fun
    | .committed e => some e
    | _ => none

/-- A poll has failed and none has begun since. -/
def adrift (log : List Mark) : Bool :=
  log.foldl (fun a m => match m with
    | .began => false
    | .failed => true
    | _ => a) false

/-- Nothing happens that the loop could ring for: no poll fails, and once one has begun nothing under
the directory is committed. -/
def Uneventful (dir : String) (since : List Mark) : Prop :=
  .failed ∉ since ∧ ∀ rest e post, since = rest ++ .committed e :: post →
    Path.isUnder dir e.key = true → .began ∉ rest

theorem committed_append (a b : List Mark) : committed (a ++ b) = committed a ++ committed b :=
  List.filterMap_append

theorem mem_committed {log : List Mark} {e : Event} : e ∈ committed log ↔ .committed e ∈ log := by
  unfold committed
  rw [List.mem_filterMap]
  constructor
  · rintro ⟨m, hm, he⟩
    cases m <;> simp at he
    subst he; exact hm
  · exact fun h => ⟨_, h, rfl⟩

theorem committed_append_of_not_mem (log : List Mark) {more : List Mark}
    (h : ∀ e, .committed e ∉ more) : committed (log ++ more) = committed log := by
  have hnone : committed more = [] :=
    List.eq_nil_iff_forall_not_mem.2 fun e he => h e (mem_committed.1 he)
  rw [committed_append, hnone, List.append_nil]

/-- Without a poll that fails or begins the loop stays adrift, or in its place. -/
theorem adrift_append : ∀ {b : List Mark} (a : List Mark), .failed ∉ b → .began ∉ b →
    adrift (a ++ b) = adrift a
  | [], a, _, _ => by rw [List.append_nil]
  | m :: b, a, hf, hb => by
    rw [List.append_cons, adrift_append (a ++ [m]) (fun h => hf (List.mem_cons_of_mem _ h))
      fun h => hb (List.mem_cons_of_mem _ h)]
    unfold adrift
    rw [List.foldl_append]
    cases m with
    | began => exact absurd (List.mem_cons_self ..) hb
    | failed => exact absurd (List.mem_cons_self ..) hf
    | committed | rang => rfl

theorem adrift_began (a : List Mark) : adrift (a ++ [.began]) = false := by
  unfold adrift; rw [List.foldl_append]; rfl

theorem adrift_failed (a : List Mark) : adrift (a ++ [.failed]) = true := by
  unfold adrift; rw [List.foldl_append]; rfl

/-- A poll that begins ends the drifting for as long as none fails. -/
theorem adrift_of_began : ∀ {b : List Mark} (a : List Mark), .failed ∉ b → .began ∈ b →
    adrift (a ++ b) = false
  | m :: b, a, hf, hb => by
    have hf' : .failed ∉ b := fun h => hf (List.mem_cons_of_mem _ h)
    rw [List.append_cons]
    by_cases hin : .began ∈ b
    · exact adrift_of_began (a ++ [m]) hf' hin
    · rw [adrift_append _ hf' hin]
      rcases List.mem_cons.1 hb with rfl | h
      · exact adrift_began a
      · exact absurd h hin

/-! ## The invariant -/

/-- The loop is on its way to hear a mutation with this number. -/
def Loop.Awaits (l : Loop) (number : Nat) : Prop :=
  match l.phase with
  | .idle => ∃ n, l.position = some n ∧ n ≤ number
  | .polling start => start ≤ number
  | .resting _ => False
  | .ended => True

/-- The loop has no place to go on from. -/
def Loop.IsLost (l : Loop) : Prop :=
  match l.phase with
  | .idle | .resting _ => l.position = none
  | .polling _ => False
  | .ended => True

/-- The loop waits, and of all that has been committed it has nothing to hear. -/
def Loop.IsSilent (l : Loop) (all : List Event) : Prop :=
  match l.phase with
  | .polling start => ∀ e ∈ all, start ≤ e.index → Path.isUnder l.dir e.key = false
  | .ended => True
  | _ => False

/-- The state of the loop agrees with the record: it keeps its place unless it is adrift, what has
not been rung for is still to be heard or was committed adrift, and without an event there is no
ring. -/
structure Watchful (dir : String) (store : Store) (loop : Loop) (log : List Mark) : Prop where
  watches : loop.dir = dir
  ledger : store.Ledger (committed log)
  bound : ∀ n, loop.position = some n ∨ loop.phase = .polling n → n ≤ store.index + 1
  ready : .began ∈ log → adrift log = false → loop.Awaits (store.index + 1)
  lost : adrift log = true → loop.IsLost
  answered : ∀ a b, log = a ++ .failed :: b → .rang ∈ b
  owed : ∀ before e since, log = before ++ .committed e :: since → .began ∈ before →
    adrift before = false → Path.isUnder dir e.key = true → .rang ∉ since → loop.Awaits e.index
  missed : ∀ before e since, log = before ++ .committed e :: since → adrift before = true →
    Uneventful dir since →
    .rang ∉ since ∧ (.began ∈ since → loop.IsSilent (committed log))

theorem watchful_ofDir (capacity : Nat) (dir : String) :
    Watchful dir (.empty capacity) { dir } [] := by
  refine ⟨rfl, Store.ledger_empty capacity, ?_, ?_, ?_, ?_, ?_, ?_⟩ <;> simp [adrift]

theorem Uneventful.left {dir : String} {a b : List Mark} (h : Uneventful dir (a ++ b)) :
    Uneventful dir a := by
  refine ⟨fun hf => h.1 (List.mem_append_left _ hf), fun rest e post ha => ?_⟩
  exact h.2 rest e (post ++ b) (by rw [ha, List.append_assoc]; rfl)

/-- What was adrift is so still when nothing has failed or begun since. -/
theorem adrift_of_uneventful {dir : String} {before since : List Mark} {e : Event}
    (h : Uneventful dir since) (hb : .began ∉ since) (ha : adrift before = true) :
    adrift (before ++ .committed e :: since) = true := by
  rw [adrift_append before (by simp [h.1]) (by simp [hb]), ha]

variable {dir : String} {store : Store} {loop : Loop} {log : List Mark}

theorem Loop.Awaits.mono {m n : Nat} (h : loop.Awaits m) (hle : m ≤ n) : loop.Awaits n := by
  unfold Loop.Awaits at h ⊢
  split
  · rename_i hp; rw [hp] at h
    obtain ⟨i, hi, hm⟩ := h
    exact ⟨i, hi, Nat.le_trans hm hle⟩
  · rename_i hp; rw [hp] at h; exact Nat.le_trans h hle
  · rename_i hp; rw [hp] at h; exact h
  · trivial

/-! ## Steps -/

/-- A mutation that is committed away from the directory leaves a silent loop silent. -/
theorem Loop.IsSilent.commit {all : List Event} {e : Event} (h : loop.IsSilent all)
    (hout : Path.isUnder loop.dir e.key = false) : loop.IsSilent (all ++ [e]) := by
  unfold Loop.IsSilent at h ⊢
  split
  · rename_i hp; rw [hp] at h
    intro d hd hle
    rcases List.mem_append.1 hd with hd | hd
    · exact h d hd hle
    · rw [List.mem_singleton] at hd; subst hd; exact hout
  · trivial
  · split at h <;> simp_all

theorem Watchful.commit (h : Watchful dir store loop log) {action : Action}
    (ha : action.isMutation = true) (key : String) (entries : List Entry) :
    Watchful dir { store.record action key with entries } loop
      (log ++ [.committed ⟨action, key, store.index + 1⟩]) := by
  have hadrift : adrift (log ++ [.committed ⟨action, key, store.index + 1⟩]) = adrift log :=
    adrift_append log (by simp) (by simp)
  have hall : committed (log ++ [.committed ⟨action, key, store.index + 1⟩]) =
      committed log ++ [⟨action, key, store.index + 1⟩] := committed_append ..
  refine ⟨h.watches, ?_, fun n hn => Nat.le_succ_of_le (h.bound n hn), fun hb hd => ?_,
    fun hd => h.lost (hadrift ▸ hd), fun a b hlog => ?_, fun before e since hlog hb hd hu hr => ?_,
    fun before e since hlog hd hq => ?_⟩
  · rw [hall]; exact (h.ledger.record ha key).withEntries entries
  · exact (h.ready (by simpa using hb) (hadrift ▸ hd)).mono (Nat.le_succ _)
  · obtain ⟨b', rfl, hlog'⟩ := append_split (by simp) hlog
    exact List.mem_append_left _ (h.answered a b' hlog')
  · rcases snoc_split hlog with ⟨rfl, he, -⟩ | ⟨since', rfl, hlog'⟩
    · cases he; exact h.ready hb hd
    · exact h.owed before e since' hlog' hb hd hu fun hr' => hr (List.mem_append_left _ hr')
  · rcases snoc_split hlog with ⟨rfl, -, rfl⟩ | ⟨since', rfl, hlog'⟩
    · simp
    obtain ⟨hrang, hsilent⟩ := h.missed before e since' hlog' hd hq.left
    refine ⟨by simp [hrang], fun hb => ?_⟩
    have hb' : .began ∈ since' := by simpa using hb
    rw [hall]
    refine (hsilent hb').commit (h.watches ▸ Bool.eq_false_iff.2 fun hu => ?_)
    exact hq.2 since' _ [] rfl hu hb'

/-- The first poll, or the first one after a failure, begins behind all that has been committed; any
other begins where the last has ended. -/
theorem Watchful.poll (h : Watchful dir store loop log) (hp : loop.phase = .idle) :
    Watchful dir store (loop.poll store) (log ++ [.began]) := by
  have hstart : store.watchStart loop.position ≤ store.index + 1 := by
    unfold Store.watchStart
    cases hn : loop.position with
    | none => exact Nat.le_refl _
    | some n => exact h.bound n (.inl hn)
  have hall : committed (log ++ [.began]) = committed log :=
    committed_append_of_not_mem log (by simp)
  refine ⟨h.watches, hall ▸ h.ledger, fun n hn => ?_, fun _ _ => hstart, fun hd => ?_,
    fun a b hlog => ?_, fun before e since hlog hb hd hu hr => ?_,
    fun before e since hlog hd hq => ?_⟩
  · rcases hn with hn | hn
    · exact h.bound n (.inl hn)
    · cases hn; exact hstart
  · rw [adrift_began] at hd; cases hd
  · obtain ⟨b', rfl, hlog'⟩ := append_split (by simp) hlog
    exact List.mem_append_left _ (h.answered a b' hlog')
  · obtain ⟨since', rfl, hlog'⟩ := append_split (by simp) hlog
    have := h.owed before e since' hlog' hb hd hu fun hr' => hr (List.mem_append_left _ hr')
    simp only [Loop.Awaits, hp] at this
    obtain ⟨n, hn, hle⟩ := this
    simpa [Loop.Awaits, Loop.poll, Store.watchStart, hn] using hle
  · obtain ⟨since', rfl, hlog'⟩ := append_split (by simp) hlog
    obtain ⟨hrang, hsilent⟩ := h.missed before e since' hlog' hd hq.left
    refine ⟨by simp [hrang], fun _ => ?_⟩
    -- the poll begins adrift, and so behind the last mutation
    have hnone : loop.position = none := by
      have hb : .began ∉ since' := fun hb => by simpa [Loop.IsSilent, hp] using hsilent hb
      have := h.lost (hlog' ▸ adrift_of_uneventful hq.left hb hd)
      simpa [Loop.IsLost, hp] using this
    intro d hd' hle
    have := (h.ledger.index_le (hall ▸ hd')).2
    simp only [Store.watchStart, hnone, Option.getD_none] at hle
    omega

/-- A failure rings for everything there is to ring for, and costs the loop its place. -/
theorem Watchful.fail (h : Watchful dir store loop log) {opening : List Mark}
    (ho : opening = [] ∨ opening = [.began]) (now : Nat) :
    Watchful dir store (loop.lost now).2 (log ++ (opening ++ [.failed, .rang])) := by
  have hcommitted : ∀ e, .committed e ∉ opening ++ [.failed, .rang] := by
    rintro e; rcases ho with rfl | rfl <;> simp
  have hall : committed (log ++ (opening ++ [.failed, .rang])) = committed log :=
    committed_append_of_not_mem log hcommitted
  have hadrift : adrift (log ++ (opening ++ [.failed, .rang])) = true := by
    have : log ++ (opening ++ [.failed, .rang]) = (log ++ opening ++ [.failed]) ++ [.rang] := by simp
    rw [this, adrift_append _ (by simp) (by simp), adrift_failed]
  refine ⟨h.watches, hall ▸ h.ledger, fun n hn => ?_, fun _ hd => ?_, fun _ => rfl,
    fun a b hlog => ?_, fun before e since hlog hb hd hu hr => ?_,
    fun before e since hlog hd hq => ?_⟩
  · simp [Loop.lost] at hn
  · rw [hadrift] at hd; cases hd
  · have hlog' : (log ++ opening ++ [.failed]) ++ [.rang] = a ++ .failed :: b := by simpa using hlog
    obtain ⟨b', rfl, -⟩ := append_split (by simp) hlog'
    simp
  · obtain ⟨since', rfl, -⟩ := append_split (hcommitted e) hlog
    simp at hr
  · obtain ⟨since', rfl, -⟩ := append_split (hcommitted e) hlog
    exact absurd hq.1 (by simp)

/-- An event is rung for, and with it all that has been committed before. -/
theorem Watchful.hear (h : Watchful dir store loop log) {start : Nat} {e : Event}
    (hp : loop.phase = .polling start)
    (he : store.eventFrom loop.dir start = .ok (some e)) :
    Watchful dir store (loop.heard e).2 (log ++ Lookout.rung e.action.isMutation) := by
  obtain ⟨hmem, hle, hunder⟩ : e ∈ committed log ∧ start ≤ e.index ∧
      Path.isUnder loop.dir e.key = true := h.ledger.found he
  rw [h.ledger.mutations e hmem, Lookout.rung, if_pos rfl]
  have hall : committed (log ++ [.rang]) = committed log :=
    committed_append_of_not_mem log (by simp)
  have hadrift : adrift (log ++ [.rang]) = adrift log := adrift_append log (by simp) (by simp)
  have hnext : e.index + 1 ≤ store.index + 1 := Nat.succ_le_succ (h.ledger.index_le hmem).2
  have hkept : adrift log = false := by
    refine Bool.eq_false_iff.2 fun hd => ?_
    simpa [Loop.IsLost, hp] using h.lost hd
  refine ⟨h.watches, hall ▸ h.ledger, fun n hn => ?_, fun _ _ => ⟨_, rfl, hnext⟩, fun hd => ?_,
    fun a b hlog => ?_, fun before d since hlog hb hd hu hr => ?_,
    fun before d since hlog hd hq => ?_⟩
  · rcases hn with hn | hn <;> cases hn
    exact hnext
  · rw [hadrift, hkept] at hd; cases hd
  · obtain ⟨b', rfl, -⟩ := append_split (by simp) hlog
    simp
  · obtain ⟨since', rfl, -⟩ := append_split (by simp) hlog
    simp at hr
  · -- an event that is heard in place was committed after the poll in place had begun
    exfalso
    obtain ⟨since', rfl, hlog'⟩ := append_split (by simp) hlog
    by_cases hb : .began ∈ since'
    · have := (h.missed before d since' hlog' hd hq.left).2 hb
      simp only [Loop.IsSilent, hp] at this
      rw [this e hmem hle] at hunder; cases hunder
    · rw [hlog', adrift_of_uneventful hq.left hb hd] at hkept; cases hkept

/-- Waking from a rest brings no place back. -/
theorem Watchful.rouse (h : Watchful dir store loop log) {due : Nat}
    (hp : loop.phase = .resting due) : Watchful dir store { loop with phase := .idle } log := by
  refine { h with bound := fun n hn => ?_, ready := fun hb hd => ?_, lost := fun hd => ?_,
                  owed := fun before e since hlog hb hd hu hr => ?_,
                  missed := fun before e since hlog hd hq => ?_ }
  · rcases hn with hn | hn
    · exact h.bound n (.inl hn)
    · cases hn
  · have := h.ready hb hd
    simp [Loop.Awaits, hp] at this
  · have := h.lost hd
    simpa [Loop.IsLost, hp] using this
  · have := h.owed before e since hlog hb hd hu hr
    simp [Loop.Awaits, hp] at this
  · refine ⟨(h.missed before e since hlog hd hq).1, fun hb => ?_⟩
    have := (h.missed before e since hlog hd hq).2 hb
    simp [Loop.IsSilent, hp] at this

theorem Watchful.stop (h : Watchful dir store loop log) : Watchful dir store loop.stop log := by
  refine { h with bound := fun n hn => ?_, ready := fun _ _ => trivial, lost := fun _ => trivial,
                  owed := fun _ _ _ _ _ _ _ _ => trivial,
                  missed := fun before e since hlog hd hq =>
                    ⟨(h.missed before e since hlog hd hq).1, fun _ => trivial⟩ }
  rcases hn with hn | hn
  · exact h.bound n (.inl hn)
  · cases hn

theorem Watchful.move (h : Watchful dir store loop log) {marks : List Mark} {store' : Store}
    {loop' : Loop} (hm : Lookout.Move store loop marks store' loop') :
    Watchful dir store' loop' (log ++ marks) := by
  cases hm with
  | stay => rwa [List.append_nil]
  | commit key entries ha => exact h.commit ha key entries
  | poll hp => exact h.poll hp
  | fail now ho => exact h.fail ho now
  | hear hp he => exact h.hear hp he
  | rouse hp => rw [List.append_nil]; exact h.rouse hp
  | stop => rw [List.append_nil]; exact h.stop

/-! ## Runs -/

/-- A blocked loop has nothing to hear. -/
theorem Watchful.not_awaits (h : Watchful dir store loop log) {start : Nat}
    (hp : loop.phase = .polling start) (hb : loop.outcome? store = none) {e : Event}
    (he : e ∈ committed log) (hu : Path.isUnder dir e.key = true) : ¬loop.Awaits e.index := by
  intro ha
  simp only [Loop.Awaits, hp] at ha
  simp only [Loop.outcome?, hp] at hb
  by_cases hclr : start ≤ store.clearedUpTo
  · simp [Store.eventFrom, hclr] at hb
  · rw [h.ledger.eventFrom _ (by omega)] at hb
    split at hb
    · cases hb
    · cases hb
    · rename_i hnone
      simp only [Except.ok.injEq, List.find?_eq_none] at hnone
      have := hnone e he
      simp [ha, h.watches, hu] at this

/-- What has not been rung for when the loop is blocked was committed while it was adrift, and since
then there has been no reason to ring. -/
theorem Watchful.uneventful (h : Watchful dir store loop log) {start : Nat}
    (hp : loop.phase = .polling start) (hb : loop.outcome? store = none) {before : List Mark}
    {e : Event} {since : List Mark} (hlog : log = before ++ .committed e :: since)
    (hbegan : .began ∈ before) (hu : Path.isUnder dir e.key = true) (hr : .rang ∉ since) :
    adrift before = true ∧ Uneventful dir since := by
  have hadrift : ∀ before e since, log = before ++ .committed e :: since → .began ∈ before →
      Path.isUnder dir e.key = true → .rang ∉ since → adrift before = true := by
    intro before e since hlog hbegan hu hr
    refine Bool.not_eq_false _ ▸ fun hd => h.not_awaits hp hb (mem_committed.2 ?_) hu
      (h.owed before e since hlog hbegan hd hu hr)
    rw [hlog]; exact List.mem_append_right _ (List.mem_cons_self ..)
  have hfailed : .failed ∉ since := by
    intro hf
    obtain ⟨a, b, rfl⟩ := List.append_of_mem hf
    have hrang := h.answered (before ++ .committed e :: a) b (by rw [hlog]; simp)
    exact hr (List.mem_append_right _ (List.mem_cons_of_mem _ hrang))
  refine ⟨hadrift before e since hlog hbegan hu hr, hfailed, ?_⟩
  -- a later mutation after a poll has begun would have been committed in place, and so rung for
  rintro rest d post rfl hu' hin
  have hd := hadrift (before ++ .committed e :: rest) d post (by rw [hlog]; simp)
    (List.mem_append_left _ hbegan) hu' fun h => hr (by simp [h])
  rw [adrift_of_began before (fun h => hfailed (by simpa using Or.inl h))
    (List.mem_cons_of_mem _ hin)] at hd
  cases hd

namespace Lookout

theorem run_watchful (capacity : Nat) (dir : String) (steps : List Step) :
    Watchful dir ((ofDir capacity dir).run steps).store ((ofDir capacity dir).run steps).loop
      ((ofDir capacity dir).history steps) :=
  run_invariant (fun hm h => h.move hm) _ (watchful_ofDir capacity dir) steps

/-- Whenever the loop is blocked, a mutation under its directory since its first poll has gone
without a ring exactly when it was committed adrift, after a failed poll and before the next one, and
nothing has happened since that the loop rings for: every other mutation has been rung for. -/
theorem unrung_iff (capacity : Nat) (dir : String) (steps : List Step)
    (hblocked : ((ofDir capacity dir).run steps).isBlocked = true)
    (before : List Mark) (e : Event) (since : List Mark)
    (hlog : (ofDir capacity dir).history steps = before ++ .committed e :: since)
    (hbegan : .began ∈ before) (hunder : Path.isUnder dir e.key = true) :
    .rang ∉ since ↔ adrift before = true ∧ Uneventful dir since := by
  have h := run_watchful capacity dir steps
  obtain ⟨start, hp, hb⟩ : ∃ start, ((ofDir capacity dir).run steps).loop.phase = .polling start ∧
      ((ofDir capacity dir).run steps).loop.outcome? ((ofDir capacity dir).run steps).store = none := by
    unfold isBlocked at hblocked
    split at hblocked
    · rename_i start hp; exact ⟨start, hp, Option.isNone_iff_eq_none.1 hblocked⟩
    · cases hblocked
  constructor
  · exact h.uneventful hp hb hlog hbegan hunder
  · rintro ⟨hd, hq⟩
    exact (h.missed before e since hlog hd hq).1

/-- A key is created while the loop rests after a failure. The loop polls again, and is blocked
without having rung. -/
theorem rest_unrung :
    let l := ofDir 1000 "/orders"
    let steps := [.poll, .fail, .create "/orders/1" "", .tick 1000, .rouse, .poll]
    (l.run steps).isBlocked = true ∧
    l.history steps =
      [.began, .failed, .rang] ++ .committed ⟨.create, "/orders/1", 1⟩ :: [.began] ∧
    .rang ∉ [Mark.began] := by
  intro l steps
  have hblocked : (l.run steps).isBlocked = true := by decide
  have hlog : l.history steps =
      [.began, .failed, .rang] ++ .committed ⟨.create, "/orders/1", 1⟩ :: [.began] := by decide
  have hquiet : Uneventful "/orders" [.began] := by
    refine ⟨by decide, fun rest e post h => ?_⟩
    have hin : .committed e ∈ [Mark.began] := h ▸ List.mem_append_right _ (List.mem_cons_self ..)
    simp at hin
  exact ⟨hblocked, hlog, (unrung_iff 1000 "/orders" steps hblocked _ _ _ hlog (by decide)
    (by decide)).2 ⟨by decide, hquiet⟩⟩

end Lookout
end Muster.Watch
