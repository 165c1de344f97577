/-
Why a resolver that has come to rest is up to date. A mutation under the service's directory is rung
for, and after a ring the loop resolves once more; so what has been committed behind the latest
listing would have led to another. Main statement: `converged`.
-/
import Mathlib.Data.List.Induction
import Muster.Proofs.Resolver.Moves
import Muster.Proofs.Store.Listing
import Muster.Proofs.Watch.WakeUps

namespace Muster

/-! ## Rings -/

/-- A ring is on its way to the listener, or is kept. -/
def Bell.pending (b : Bell) : Bool := b.handed || b.stored

theorem Bell.pending_ring (b : Bell) : b.ring.2.pending = true := by
  unfold ring pending
  split <;> simp

theorem Bell.pending_leave (b : Bell) : b.leave.pending = b.pending := by
  simp [leave, pending, Bool.or_comm]

theorem Bell.pending_listen {b : Bell} (h : b.listen.1 = false) :
    b.listen.2.pending = b.pending := by
  obtain ⟨waiting, handed, stored⟩ := b
  cases handed <;> cases stored <;> simp_all [listen, pending]

namespace Watch.Lookout

theorem rang_not_recorded (action : Action) (key : String) (r : Except Fault Store) :
    .rang ∉ recorded action key r := by
  cases r <;> simp [recorded]

theorem mutated_bell (l : Lookout) (r : Except Fault Store) : (l.mutated r).bell = l.bell := by
  cases r <;> rfl

theorem goOn_bell (l : Lookout) (r : Bool × Loop) :
    .rang ∈ rung r.1 ∧ (l.goOn r).2.bell = l.bell.ring.2 ∨
      .rang ∉ rung r.1 ∧ (l.goOn r).2.bell = l.bell := by
  obtain ⟨rings, loop⟩ := r
  cases rings with
  | true => exact .inl ⟨List.mem_singleton.2 rfl, rfl⟩
  | false => exact .inr ⟨List.not_mem_nil, rfl⟩

/-- The bell is rung when the record says so, and else only a listener touches it. -/
theorem bell_step (l : Lookout) {s : Step} (hs : Resolver.listens s = false) :
    .rang ∈ l.marks s ∧ (l.step s).2.bell = l.bell.ring.2 ∨
      .rang ∉ l.marks s ∧ (l.step s).2.bell = l.bell := by
  cases s with
  | listen | leave | take => cases hs
  | tick | rouse | stop => exact .inr ⟨List.not_mem_nil, rfl⟩
  | create key value => exact .inr ⟨rang_not_recorded .create key _, mutated_bell l _⟩
  | delete key => exact .inr ⟨rang_not_recorded .delete key _, mutated_bell l _⟩
  | poll => cases hp : l.loop.phase <;> exact .inr (by simp [marks, step, hp])
  | fail =>
    have hlost := l.goOn_bell (l.loop.lost l.now)
    cases hp : l.loop.phase with
    | idle | polling => simpa [marks, step, hp] using hlost
    | resting | ended => exact .inr (by simp [marks, step, hp])
  | hear =>
    cases ho : l.loop.outcome? l.store with
    | none => exact .inr (by simp [marks, step, ho])
    | some r =>
      have htaken := l.goOn_bell (l.loop.take l.now r)
      cases r with
      | ok e => simpa [marks, step, ho, Loop.take] using htaken
      | error f => simpa [marks, step, ho, Loop.take] using htaken

/-- Whenever the loop rings a ring is pending, and so it stays until somebody listens. -/
theorem pending_step (l : Lookout) {s : Step} (hs : Resolver.listens s = false)
    (h : l.bell.pending = true ∨ .rang ∈ l.marks s) : (l.step s).2.bell.pending = true := by
  rcases l.bell_step hs with ⟨-, hbell⟩ | ⟨hr, hbell⟩
  · rw [hbell]
    exact l.bell.pending_ring
  · rw [hbell]
    exact h.resolve_right hr

/-- A step by which nothing under a directory is committed leaves its list as it is. -/
theorem list_step (l : Lookout) (s : Step) {dir : String}
    (h : ∀ e, .committed e ∈ l.marks s → Path.isUnder dir e.key = false) :
    (l.step s).2.store.list dir = l.store.list dir := by
  cases s with
  | tick | rouse | stop | listen | leave | take => rfl
  | create key value =>
    simp only [marks, step] at h ⊢
    cases hc : l.store.create key value with
    | error f => rfl
    | ok t => exact Store.list_of_create hc (h ⟨.create, key, t.index⟩ (by simp [hc, recorded]))
  | delete key =>
    simp only [marks, step] at h ⊢
    cases hc : l.store.delete key with
    | error f => rfl
    | ok t => exact Store.list_of_delete hc (h ⟨.delete, key, t.index⟩ (by simp [hc, recorded]))
  | poll => cases hp : l.loop.phase <;> simp [step, hp]
  | fail => cases hp : l.loop.phase <;> simp [step, hp, goOn_snd]
  | hear =>
    simp only [step]
    cases l.loop.outcome? l.store with
    | none => rfl
    | some r => rw [(goOn_snd l _).1]

end Watch.Lookout

namespace Resolver

/-! ## What the marks say -/

/-- The marks of the lookout among those of the office. -/
def watched (log : List Mark) : List Watch.Mark :=
  log.filterMap fun
    | .watch m => some m
    | _ => none

/-- What the latest resolution has found: nothing while it goes on, and when it has failed. -/
def found (log : List Mark) : Option AddressSet :=
  log.foldl (fun r m => match m with
    | .began => none
    | .listed (.found set) => some set
    | .listed _ => none
    | _ => r) none

/-- The set that the sink was given last. -/
def lastTold (log : List Mark) : Option AddressSet :=
  log.foldl (fun r m => match m with
    | .told set => some set
    | _ => r) none

theorem watched_append (a b : List Mark) : watched (a ++ b) = watched a ++ watched b :=
  List.filterMap_append

theorem watched_map (ms : List Watch.Mark) : watched (ms.map .watch) = ms := by
  unfold watched
  rw [List.filterMap_map]
  exact List.filterMap_some

theorem mem_watched {log : List Mark} {m : Watch.Mark} : m ∈ watched log ↔ .watch m ∈ log := by
  unfold watched
  rw [List.mem_filterMap]
  constructor
  · rintro ⟨n, hn, he⟩
    cases n <;> simp at he
    subst he; exact hn
  · exact fun h => ⟨_, h, rfl⟩

/-- Neither what was found nor what the sink knows changes with what the lookout does. -/
theorem found_append_watch (log : List Mark) : ∀ ms : List Watch.Mark,
    found (log ++ ms.map .watch) = found log
  | [] => by rw [List.map_nil, List.append_nil]
  | m :: ms => by
    rw [List.map_cons, List.append_cons, found_append_watch (log ++ [Mark.watch m]) ms]
    unfold found; rw [List.foldl_append]; rfl

theorem lastTold_append_watch (log : List Mark) : ∀ ms : List Watch.Mark,
    lastTold (log ++ ms.map .watch) = lastTold log
  | [] => by rw [List.map_nil, List.append_nil]
  | m :: ms => by
    rw [List.map_cons, List.append_cons, lastTold_append_watch (log ++ [Mark.watch m]) ms]
    unfold lastTold; rw [List.foldl_append]; rfl

theorem found_began (log : List Mark) : found (log ++ [.began]) = none := by
  unfold found; rw [List.foldl_append]; rfl

theorem found_listed (log : List Mark) (r : Listing) : found (log ++ [.listed r]) =
    match r with
    | .found set => some set
    | _ => none := by
  unfold found; rw [List.foldl_append]
  cases r <;> rfl

theorem found_told (log : List Mark) (set : AddressSet) :
    found (log ++ [.told set]) = found log := by
  unfold found; rw [List.foldl_append]; rfl

theorem lastTold_told (log : List Mark) (set : AddressSet) :
    lastTold (log ++ [.told set]) = some set := by
  unfold lastTold; rw [List.foldl_append]; rfl

/-- What was found was listed, and no resolution has begun since. -/
theorem listed_of_found {log : List Mark} {set : AddressSet} (h : found log = some set) :
    ∃ a b, log = a ++ .listed (.found set) :: b ∧ .began ∉ b := by
  induction log using List.reverseRecOn with
  | nil => cases h
  | append_singleton log m ih =>
    have older : found log = some set → m ≠ .began →
        ∃ a b, log ++ [m] = a ++ .listed (.found set) :: b ∧ .began ∉ b := by
      intro hf hm
      obtain ⟨a, b, rfl, hb⟩ := ih hf
      exact ⟨a, b ++ [m], by simp, by simpa [hb] using hm.symm⟩
    cases m with
    | watch m => exact older (by rwa [show [Mark.watch m] = [m].map .watch from rfl,
        found_append_watch] at h) (by simp)
    | told set => exact older (by rwa [found_told] at h) (by simp)
    | began => rw [found_began] at h; cases h
    | listed r =>
      rw [found_listed] at h
      split at h
      · cases h; exact ⟨log, [], rfl, by simp⟩
      · cases h

/-! ## The invariant -/

/-- The phase of the loop agrees with what was found and told. -/
def Loop.Agrees (l : Loop) (log : List Mark) : Prop :=
  match l.phase with
  | .waiting _ | .quiet _ => ∀ set, found log = some set → lastTold log = some set
  | .listing .. => True
  | .delivering set _ => found log = some set
  | .ended => True

/-- The state of the office agrees with the record: after every ring of the lookout a resolution has
begun or the ring is pending still, and a set that was listed is current until something under the
directory is committed. -/
structure Attentive (o : Office) (log : List Mark) : Prop where
  watchful : Watch.Watchful o.service.directory o.lookout.store o.lookout.loop (watched log)
  heeded : ∀ a b, log = a ++ .watch .rang :: b → o.lookout.bell.pending = true ∨ .began ∈ b
  shown : ∀ a set b, log = a ++ .listed (.found set) :: b →
    (∀ e, .watch (.committed e) ∈ b → Path.isUnder o.service.directory e.key = false) →
    o.current = .ok set
  agrees : o.loop.Agrees log

theorem attentive_ofService (capacity : Nat) (service : Registry.Service) (config : Config) :
    Attentive (.ofService capacity service config) [] := by
  refine ⟨Watch.watchful_ofDir capacity service.directory, ?_, ?_, ?_⟩
  · simp
  · simp
  · exact fun set h => nomatch h

variable {o : Office} {log : List Mark}

theorem Office.current_congr {o o' : Office} (hs : o'.service = o.service)
    (hl : o'.lookout.store.list o.service.directory = o.lookout.store.list o.service.directory) :
    o'.current = o.current := by
  unfold Office.current lookup Registry.listService Registry.memory
  rw [hs]
  simp only [hl]

/-- The lookout goes on. -/
theorem Attentive.watch (h : Attentive o log) {s : Watch.Step} (hs : listens s = false) :
    Attentive { o with lookout := (o.lookout.step s).2 }
      (log ++ (o.lookout.marks s).map .watch) := by
  refine ⟨?_, fun a b hlog => ?_, fun a set b hlog hb => ?_, ?_⟩
  · rw [watched_append, watched_map]
    exact h.watchful.move (Watch.Lookout.step_move o.lookout s)
  · by_cases hr : .rang ∈ o.lookout.marks s
    · exact .inl (o.lookout.pending_step hs (.inr hr))
    · obtain ⟨b', rfl, hlog'⟩ := append_split (by simpa using hr) hlog
      refine (h.heeded a b' hlog').imp (fun hp => ?_) fun hb => List.mem_append_left _ hb
      exact o.lookout.pending_step hs (.inl hp)
  · obtain ⟨b', rfl, hlog'⟩ := append_split (by simp) hlog
    have hnew : ∀ e, .committed e ∈ o.lookout.marks s →
        Path.isUnder o.service.directory e.key = false := fun e he =>
      hb e (List.mem_append_right _ (List.mem_map_of_mem he))
    have hsame : ({ o with lookout := (o.lookout.step s).2 } : Office).current = o.current :=
      Office.current_congr rfl (o.lookout.list_step s hnew)
    rw [hsame]
    exact h.shown a set b' hlog' fun e he => hb e (List.mem_append_left _ he)
  · have := h.agrees
    unfold Loop.Agrees at this ⊢
    simpa only [found_append_watch, lastTold_append_watch] using this

/-- The bell alone changes, and no ring is lost. -/
theorem Attentive.setBell (h : Attentive o log) {bell : Bell}
    (hp : o.lookout.bell.pending = true → bell.pending = true) : Attentive (o.setBell bell) log where
  watchful := h.watchful
  heeded a b hlog := (h.heeded a b hlog).imp_left hp
  shown := h.shown
  agrees := h.agrees

/-- The loop goes on, and leaves a mark that is none of the lookout's. -/
theorem Attentive.goOn (h : Attentive o log) {loop : Loop} {m : Mark}
    (hm : ∀ n, m ≠ .watch n) (hfound : ∀ set, m = .listed (.found set) → o.current = .ok set)
    (hagrees : loop.Agrees (log ++ [m])) : Attentive { o with loop } (log ++ [m]) := by
  have hwatched : watched (log ++ [m]) = watched log := by
    rw [watched_append]
    cases m with
    | watch n => exact absurd rfl (hm n)
    | began | listed | told => exact List.append_nil _
  refine ⟨hwatched ▸ h.watchful, fun a b hlog => ?_, fun a set b hlog hb => ?_, hagrees⟩
  · obtain ⟨b', rfl, hlog'⟩ := append_split (by simpa using (hm _).symm) hlog
    exact (h.heeded a b' hlog').imp_right fun hb => List.mem_append_left _ hb
  · rcases snoc_split hlog with ⟨-, he, -⟩ | ⟨b', rfl, hlog'⟩
    · exact hfound set he.symm
    · exact h.shown a set b' hlog' fun e he => hb e (List.mem_append_left _ he)

/-- A resolution begins, which is what all rings have been for. -/
theorem Attentive.begin (h : Attentive o log) (bell : Bell) (delay : Nat) :
    Attentive { o.setBell bell with loop := o.loop.resolve o.now delay } (log ++ [.began]) := by
  have hbegan : Attentive { o with loop := o.loop.resolve o.now delay } (log ++ [.began]) :=
    h.goOn (by simp) (by simp) trivial
  refine { hbegan with heeded := fun a b hlog => .inr ?_ }
  obtain ⟨b', rfl, -⟩ := append_split (by simp) hlog
  simp

theorem Office.current_of_listing {contact : Contact} {set : AddressSet}
    (h : o.listing contact = .found set) : o.current = .ok set := by
  unfold Office.listing at h
  split at h
  · split at h
    · rename_i hc; cases h; exact hc
    · cases h
  · cases h
  · cases h

theorem Loop.listed_agrees (l : Loop) (more now delay sinkDelay : Nat) (r : Listing)
    (log : List Mark) : (l.listed more now delay sinkDelay r).2.Agrees (log ++ [.listed r]) := by
  cases r with
  | found set => exact found_listed log _
  | broken => exact fun set h => by rw [found_listed] at h; cases h
  | fault f =>
    cases more with
    | zero => exact fun set h => by rw [found_listed] at h; cases h
    | succ more => trivial

theorem Attentive.move (h : Attentive o log) {marks : List Mark} {o' : Office}
    (hm : Office.Move o marks o') : Attentive o' (log ++ marks) := by
  have hagrees := h.agrees
  cases hm with
  | stay => rwa [List.append_nil]
  | watch hs => exact h.watch hs
  | ask => rw [List.append_nil]; exact h.setBell fun _ => o.lookout.bell.pending_ring
  | unheard hb =>
    rw [List.append_nil]
    exact h.setBell fun hp => (Bell.pending_listen hb).trans hp
  | begin bell delay => exact h.begin bell delay
  | list contact delay sinkDelay hp =>
    refine h.goOn (by simp) (fun set hset => ?_) (o.loop.listed_agrees ..)
    exact Office.current_of_listing (Mark.listed.inj hset)
  | deliver hp =>
    refine h.goOn (by simp) (by simp) fun set' hfound => ?_
    rw [Loop.Agrees, hp] at hagrees
    rw [found_told, hagrees] at hfound
    rw [lastTold_told, hfound]
  | rest hp =>
    rw [Loop.Agrees, hp] at hagrees
    rw [List.append_nil]
    exact { h with agrees := hagrees }
  | stop =>
    rw [List.append_nil]
    exact { h.setBell fun hp => (Bell.pending_leave _).trans hp with agrees := trivial }

theorem Office.run_attentive (capacity : Nat) (service : Registry.Service) (config : Config)
    (steps : List Step) :
    Attentive ((ofService capacity service config).run steps)
      ((ofService capacity service config).history steps) :=
  run_invariant (fun hm h => h.move hm) _ (attentive_ofService capacity service config) steps

theorem Office.run_service (capacity : Nat) (service : Registry.Service) (config : Config)
    (steps : List Step) : ((ofService capacity service config).run steps).service = service :=
  run_invariant (P := fun o _ => o.service = service)
    (fun hm h => by cases hm <;> exact h) _ rfl steps

/-- What is current are the addresses of the records that are listed. -/
theorem Office.records_of_current {set : AddressSet} (h : o.current = .ok set) :
    ∃ records, (Registry.listService Registry.memory o.service o.lookout.store).1 = .ok records ∧
      set = .ofRecords (records.map (·.2)) := by
  unfold Office.current lookup at h
  simp only at h
  cases hl : (Registry.listService Registry.memory o.service o.lookout.store).1 with
  | error f => rw [hl] at h; cases h
  | ok records => rw [hl] at h; cases h; exact ⟨records, rfl, rfl⟩

/-! ## At rest -/

/-- A loop that is blocked, and of whose polls none has failed, has rung for whatever was committed
since its first poll. -/
theorem rang_of_committed {dir : String} {l : Watch.Lookout} {marks : List Watch.Mark}
    (h : Watch.Watchful dir l.store l.loop marks) (hblocked : l.isBlocked = true)
    (hpolls : .failed ∉ marks) {before : List Watch.Mark} {e : Event} {since : List Watch.Mark}
    (hmarks : marks = before ++ .committed e :: since) (hbegan : .began ∈ before)
    (hu : Path.isUnder dir e.key = true) : .rang ∈ since := by
  obtain ⟨start, hp, hb⟩ : ∃ start, l.loop.phase = .polling start ∧
      l.loop.outcome? l.store = none := by
    unfold Watch.Lookout.isBlocked at hblocked
    split at hblocked
    · rename_i start hp; exact ⟨start, hp, Option.isNone_iff_eq_none.1 hblocked⟩
    · cases hblocked
  by_contra hr
  have hadrift := (h.uneventful hp hb hmarks hbegan hu hr).1
  have hkept : Watch.adrift before = false := by
    refine Watch.adrift_of_began [] (fun hf => hpolls ?_) hbegan
    rw [hmarks]; exact List.mem_append_left _ hf
  rw [hkept] at hadrift; cases hadrift

/-- Nothing has been committed behind the listing of the latest resolution when all is at rest: it
would have been rung for, and the ring would have led to another resolution. -/
theorem Attentive.unchanged (h : Attentive o log) (hpolls : .watch .failed ∉ log)
    (hblocked : o.lookout.isBlocked = true) (hheard : o.lookout.bell.pending = false)
    {a b : List Mark} {r : Listing} (hlog : log = a ++ .listed r :: b)
    (hpolled : .watch .began ∈ a) (hlatest : .began ∉ b) {e : Event}
    (he : .watch (.committed e) ∈ b) : Path.isUnder o.service.directory e.key = false := by
  refine Bool.eq_false_iff.2 fun hu => ?_
  obtain ⟨b₁, b₂, rfl⟩ := List.append_of_mem he
  have hmarks : watched log = watched (a ++ .listed r :: b₁) ++ .committed e :: watched b₂ := by
    rw [hlog, ← List.cons_append, ← List.append_assoc, watched_append]
    rfl
  have hrang : .rang ∈ watched b₂ := by
    refine rang_of_committed h.watchful hblocked (fun hf => hpolls (mem_watched.1 hf)) hmarks ?_ hu
    exact mem_watched.2 (List.mem_append_left _ hpolled)
  obtain ⟨c, d, hd⟩ := List.append_of_mem (mem_watched.1 hrang)
  rcases h.heeded (a ++ .listed r :: b₁ ++ .watch (.committed e) :: c) d (by rw [hlog, hd]; simp)
    with hp | hb
  · rw [hheard] at hp; cases hp
  · exact hlatest (by rw [hd]; simp [hb])

/-- A resolver no poll of which has failed, and which had polled before it first listed, is up to date
whenever it is at rest: if the watch loop is blocked, the other loop waits with no ring on its way to
it or kept for it, and the latest resolution has succeeded, then the sink was last given the addresses
of the records that the service has now. -/
theorem converged (capacity : Nat) (service : Registry.Service) (config : Config)
    (steps : List Step) :
    let o := (Office.ofService capacity service config).run steps
    let log := (Office.ofService capacity service config).history steps
    .watch .failed ∉ log → (∀ a r b, log = a ++ .listed r :: b → .watch .began ∈ a) →
    o.lookout.isBlocked = true → o.loop.isWaiting = true → o.lookout.bell.pending = false →
    (found log).isSome = true →
    ∃ records, (Registry.listService Registry.memory service o.lookout.store).1 = .ok records ∧
      lastTold log = some (AddressSet.ofRecords (records.map (·.2))) := by
  intro o log hpolls hfirst hblocked hwaiting hheard hsucceeded
  have h : Attentive o log := Office.run_attentive capacity service config steps
  obtain ⟨set, hset⟩ := Option.isSome_iff_exists.1 hsucceeded
  have htold : lastTold log = some set := by
    have hagrees := h.agrees
    unfold Loop.isWaiting at hwaiting
    split at hwaiting
    · rename_i due hp
      rw [Loop.Agrees, hp] at hagrees
      exact hagrees set hset
    · cases hwaiting
  obtain ⟨a, b, hlog, hlatest⟩ := listed_of_found hset
  have hcurrent : o.current = .ok set := h.shown a set b hlog fun e he =>
    h.unchanged hpolls hblocked hheard hlog (hfirst a _ b hlog) hlatest he
  obtain ⟨records, hrecords, rfl⟩ := Office.records_of_current hcurrent
  rw [Office.run_service] at hrecords
  exact ⟨records, hrecords, htold⟩

/-- A record is registered in the quiet period behind the first resolution. It is rung for, and the
resolution after the quiet period finds it. -/
theorem registration_found :
    let service : Registry.Service := { name := "orders" }
    let record := "\x7b\"service_ip\":\"10.0.0.5\",\"service_port\":\"9001\"\x7d"
    let steps : List Step :=
      [.watch .poll, .listen 0, .list .reached 0 0, .deliver,
       .watch (.create (service.key "1") record), .watch .hear, .watch .poll,
       .watch (.tick 3000), .rest, .listen 0, .list .reached 0 0, .deliver,
       .watch (.tick 3000), .rest]
    let o := (Office.ofService 1000 service {}).run steps
    let log := (Office.ofService 1000 service {}).history steps
    o.lookout.isBlocked = true ∧ o.loop.isWaiting = true ∧ o.lookout.store.size = 1 ∧
    ∃ records, (Registry.listService Registry.memory service o.lookout.store).1 = .ok records ∧
      lastTold log = some (AddressSet.ofRecords (records.map (·.2))) := by
  intro service record steps
  have hbegan : ((Office.ofService 1000 service {}).history steps).head? = some (.watch .began) := by
    decide +kernel
  refine ⟨by decide +kernel, by decide +kernel, by decide +kernel,
    converged 1000 service {} steps (by decide +kernel) (fun a r b hlog => ?_) (by decide +kernel)
      (by decide +kernel) (by decide +kernel) (by decide +kernel)⟩
  rw [hlog] at hbegan
  cases a with
  | nil => cases hbegan
  | cons m a => cases hbegan; exact List.mem_cons_self ..

end Resolver
end Muster
