/-
What a channel is like when an address set has been applied to it. The update works alone: it shuts
down what is stale, and connects, each once, those members that are not ready. How far it has come with
them is a matter of what it still waits for (`Tried`); when it waits for nothing any more, every member
is ready or has failed as its connect ended, and the rotation is over those that are ready.
-/
import Muster.Proofs.Channel.Alone
import Muster.Proofs.Channel.Streams

namespace Muster.Channel

variable {ς : Type}

/-! ## How far an update has come -/

/-- What a connect makes of a subchannel that is not connected. -/
def Subchannel.tried (c : Subchannel ς) (r : Except Fault ς) : Subchannel ς :=
  c.beginConnect.endConnect r

theorem Subchannel.tried_of_dialing {c : Subchannel ς} (h : c.approach = .dialing)
    (r : Except Fault ς) : c.tried r = match r with
      | .ok stream => { addr := c.addr, state := .ready, stream := some stream }
      | .error _ => { addr := c.addr, state := .transientFailure } := by
  obtain ⟨hopen, hstream⟩ := approach_dialing h
  obtain ⟨addr, state, stream⟩ := c
  cases hstream
  unfold tried beginConnect
  rw [enter, if_neg hopen]
  cases r <;> rfl

/-- The connects that have ended, for each subchannel. -/
abbrev Dials (ς : Type) : Type := Nat → List (Except Fault ς)

variable {c : Channel ς} {r : Channel ς × Update} {waiting busy : List Nat} {ds : Dials ς}

/-- An address set is in place, and the update still waits for the streams of some subchannels and for
the connects of others. -/
structure Tried (r : Channel ς × Update) (waiting busy : List Nat) (c : Channel ς) (ds : Dials ς) :
    Prop where
  members : c.members = r.1.members
  addresses : c.addresses = r.1.addresses
  closed : c.closed = r.1.closed
  nodup : (waiting ++ busy).Nodup
  sub : waiting ++ busy ⊆ r.2.pending
  wait : ∀ i ∈ waiting, c.subchannel? i = r.1.subchannel? i
  dialing : ∀ i ∈ busy, c.subchannel? i = (r.1.subchannel? i).map Subchannel.beginConnect
  quiet : ∀ i, i ∉ r.2.pending ∨ i ∈ waiting ++ busy → ds i = []
  done : ∀ i ∈ r.2.pending, i ∉ waiting ++ busy →
    ∃ x, ds i = [x] ∧ c.subchannel? i = (r.1.subchannel? i).map (·.tried x)
  steady : ∀ i ∈ r.1.present, i ∉ r.2.pending → c.subchannel? i = r.1.subchannel? i

namespace Tried

/-- What is put in place leaves the subchannels of the members to be tried. -/
theorem start (hn : r.2.pending.Nodup) : Tried r r.2.pending [] r.1 (fun _ => []) := by
  refine ⟨rfl, rfl, rfl, ?_, ?_, fun _ _ => rfl, nofun, fun _ _ => rfl, fun i hi hout => ?_,
    fun _ _ _ => rfl⟩
  · rwa [List.append_nil]
  · rw [List.append_nil]; exact List.Subset.refl _
  · rw [List.append_nil] at hout
    exact absurd hi hout

/-- What is not a member does not matter. -/
theorem update_other {j : Nat} (h : Tried r waiting busy c ds) (hsub : r.2.pending ⊆ r.1.present)
    (hj : j ∉ r.1.present) (f : Subchannel ς → Subchannel ς) :
    Tried r waiting busy (c.update j f) ds := by
  have hsame {i : Nat} (hi : i ∈ r.1.present) : (c.update j f).subchannel? i = c.subchannel? i := by
    rw [subchannel?_update, if_neg]
    rintro rfl
    exact hj hi
  have hmem {i : Nat} (hi : i ∈ waiting ++ busy) : i ∈ r.1.present := hsub (h.sub hi)
  exact { h with
    wait := fun i hi => (hsame (hmem (List.mem_append_left _ hi))).trans (h.wait i hi)
    dialing := fun i hi => (hsame (hmem (List.mem_append_right _ hi))).trans (h.dialing i hi)
    done := fun i hi hout => by rw [hsame (hsub hi)]; exact h.done i hi hout
    steady := fun i hi hout => (hsame hi).trans (h.steady i hi hout) }

/-- A connect begins. -/
theorem dial {i : Nat} (h : Tried r waiting busy c ds) (hi : i ∈ waiting) :
    Tried r (waiting.erase i) (i :: busy) (c.update i Subchannel.beginConnect) ds := by
  have hperm : (waiting.erase i ++ i :: busy).Perm (waiting ++ busy) :=
    List.perm_middle.trans ((List.perm_cons_erase hi).symm.append_right busy)
  have hnodup := List.nodup_append.1 h.nodup
  have hsame {j : Nat} (hj : j ≠ i) : (c.update i Subchannel.beginConnect).subchannel? j =
      c.subchannel? j := by
    rw [subchannel?_update, if_neg hj]
  refine ⟨h.members, h.addresses, h.closed, hperm.nodup_iff.2 h.nodup,
    fun j hj => h.sub (hperm.mem_iff.1 hj), fun j hj => ?_, fun j hj => ?_, fun j hj => ?_,
    fun j hj hout => ?_, fun j hj hout => ?_⟩
  · have hji : j ≠ i := fun he => List.Nodup.not_mem_erase hnodup.1 (he ▸ hj)
    exact (hsame hji).trans (h.wait j (List.mem_of_mem_erase hj))
  · rcases List.mem_cons.1 hj with rfl | hj
    · rw [subchannel?_update, if_pos rfl, h.wait j hi]
    · have hji : j ≠ i := fun he => hnodup.2.2 i hi j hj he.symm
      exact (hsame hji).trans (h.dialing j hj)
  · exact h.quiet j (hj.imp_right hperm.mem_iff.1)
  · have hout' : j ∉ waiting ++ busy := fun hin => hout (hperm.mem_iff.2 hin)
    have hji : j ≠ i := fun he => hout' (he ▸ List.mem_append_left _ hi)
    rw [hsame hji]
    exact h.done j hj hout'
  · have hji : j ≠ i := fun he => hout (he ▸ h.sub (List.mem_append_left _ hi))
    exact (hsame hji).trans (h.steady j hj hout)

/-- A connect ends. -/
theorem ended {i : Nat} (h : Tried r waiting busy c ds) (hi : i ∈ busy) (x : Except Fault ς) :
    Tried r waiting (busy.erase i) (c.update i fun s => s.endConnect x)
      (fun j => ds j ++ if j = i then [x] else []) := by
  have hperm : (i :: (waiting ++ busy.erase i)).Perm (waiting ++ busy) :=
    List.perm_middle.symm.trans ((List.perm_cons_erase hi).symm.append_left waiting)
  obtain ⟨hnot, hnodup⟩ := List.nodup_cons.1 (hperm.nodup_iff.2 h.nodup)
  have hmem {j : Nat} (hj : j ∈ waiting ++ busy.erase i) : j ∈ waiting ++ busy :=
    hperm.mem_iff.1 (List.mem_cons_of_mem i hj)
  have hne {j : Nat} (hj : j ∈ waiting ++ busy.erase i) : j ≠ i := fun he => hnot (he ▸ hj)
  have hpending : i ∈ r.2.pending := h.sub (List.mem_append_right _ hi)
  have hsame {j : Nat} (hj : j ≠ i) : (c.update i fun s => s.endConnect x).subchannel? j =
      c.subchannel? j := by
    rw [subchannel?_update, if_neg hj]
  refine ⟨h.members, h.addresses, h.closed, hnodup, fun j hj => h.sub (hmem hj), fun j hj => ?_,
    fun j hj => ?_, fun j hj => ?_, fun j hj hout => ?_, fun j hj hout => ?_⟩
  · exact (hsame (hne (List.mem_append_left _ hj))).trans (h.wait j hj)
  · exact (hsame (hne (List.mem_append_right _ hj))).trans (h.dialing j (List.mem_of_mem_erase hj))
  · have hji : j ≠ i := by
      rintro rfl
      exact hj.elim (absurd hpending) hnot
    rw [h.quiet j (hj.imp_right hmem), if_neg hji, List.append_nil]
  · by_cases hji : j = i
    · subst hji
      refine ⟨x, ?_, ?_⟩
      · rw [h.quiet j (.inr (List.mem_append_right _ hi)), if_pos rfl, List.nil_append]
      · rw [subchannel?_update, if_pos rfl, h.dialing j hi, Option.map_map]
        rfl
    · rw [hsame hji, if_neg hji, List.append_nil]
      refine h.done j hj fun hin => ?_
      rcases List.mem_cons.1 (hperm.mem_iff.2 hin) with he | hin
      · exact hji he
      · exact hout hin
  · have hji : j ≠ i := fun he => hout (he ▸ hpending)
    exact (hsame hji).trans (h.steady j hj hout)

end Tried

/-- What an update waits for when its address set is in place. -/
inductive Phase (r : Channel ς × Update) : Channel ς × Task → Dials ς → Prop
  | dropping {c : Channel ς} {ds : Dials ς} {i : Nat} {stale : List Nat} :
      Tried r r.2.pending [] c ds → (∀ j ∈ i :: stale, j ∉ r.1.present) →
      Phase r (c, .dropping i stale r.2.pending) ds
  | connecting {c : Channel ς} {ds : Dials ς} {waiting busy : List Nat} :
      Tried r waiting busy c ds → Phase r (c, .connecting none waiting busy) ds
  | ended {c : Channel ς} {ds : Dials ς} :
      Tried r [] [] c ds → c.rotation.entries = c.ready → Phase r (c, .ended none) ds

theorem Tried.join (h : Tried r waiting busy c ds) :
    Phase r (Task.join none waiting busy c) ds := by
  unfold Task.join
  split
  · exact .ended { h with } rfl
  · exact .connecting h

theorem Tried.drop (h : Tried r r.2.pending [] c ds) (hsub : r.2.pending ⊆ r.1.present)
    {stale : List Nat} (hstale : ∀ j ∈ stale, j ∉ r.1.present) :
    Phase r (Task.drop stale r.2.pending c) ds := by
  cases stale with
  | nil => exact h.join
  | cons i stale => exact .dropping (h.update_other hsub (hstale i List.mem_cons_self) _) hstale

/-- What somebody comes to by one step, and the connects that end by it. -/
inductive Stride : Channel ς × Task → Channel ς × Task → Dials ς → Prop
  | lock {a b : Channel ς × Task} : a.2.lock? a.1 = some b → Stride a b fun _ => []
  | stream {a b : Channel ς × Task} {i : Nat} : a.2.stream? i a.1 = some b → Stride a b fun _ => []
  | connected {a b : Channel ς × Task} {i : Nat} {x : Except Fault ς} :
      a.2.connected? i x a.1 = some b → Stride a b fun j => if j = i then [x] else []
  | answered {a b : Channel ς × Task} {x : Except Fault Wire.Response} :
      a.2.answered? x a.1 = some b → Stride a b fun _ => []

/-- What an address set leaves to be connected are members that have to be dialed. -/
structure Dialable (r : Channel ς × Update) : Prop where
  sub : r.2.pending ⊆ r.1.present
  approach : ∀ i ∈ r.2.pending, ∃ s, r.1.subchannel? i = some s ∧ s.approach = .dialing

theorem Phase.stride {a b : Channel ς × Task} {more : Dials ς} (h : Phase r a ds)
    (hr : Dialable r) (hstride : Stride a b more) : Phase r b fun i => ds i ++ more i := by
  have hquiet {b : Channel ς × Task} (h : Phase r b ds) : Phase r b fun i => ds i ++ [] := by
    simpa only [List.append_nil] using h
  cases h with
  | @dropping c _ j stale h hstale =>
    cases hstride with
    | lock hturn | connected hturn | answered hturn => cases hturn
    | stream hturn =>
      obtain ⟨rfl, hturn⟩ := Option.ite_none_right_eq_some.1 hturn
      cases hturn
      have hrest := h.update_other hr.sub (hstale _ List.mem_cons_self) Subchannel.endShutdown
      exact hquiet (hrest.drop hr.sub fun j hj => hstale j (List.mem_cons_of_mem _ hj))
  | @connecting c _ waiting busy h =>
    cases hstride with
    | lock hturn | answered hturn => cases hturn
    | @stream i hturn =>
      obtain ⟨hi, hturn⟩ := Option.ite_none_right_eq_some.1 hturn
      -- nobody has touched it, so it has to be dialed
      obtain ⟨s, hs, ha⟩ := hr.approach i (h.sub (List.mem_append_left _ hi))
      have happroach : (c.subchannel? i).map Subchannel.approach = some .dialing := by
        rw [h.wait i hi, hs, Option.map_some, ha]
      rw [happroach] at hturn
      cases hturn
      exact hquiet (.connecting (h.dial hi))
    | @connected i x hturn =>
      obtain ⟨hi, hturn⟩ := Option.ite_none_right_eq_some.1 hturn
      cases hturn
      exact (h.ended hi x).join
  | ended => cases hstride with
    | lock hturn | stream hturn | connected hturn | answered hturn => cases hturn

/-- An update that waits for the lock, or has put its address set in place. -/
inductive Underway (c : Channel ς) (set : Addresses) : Channel ς × Task → Dials ς → Prop
  | waiting : Underway c set (c, .updating set) fun _ => []
  | placed {x : Channel ς × Task} {ds : Dials ς} : Phase (c.replace set.1) x ds →
      Underway c set x ds

theorem Underway.stride {set : Addresses} {a b : Channel ς × Task} {more : Dials ς}
    (h : Underway c set a ds) (hc : c.Distinct) (hr : Dialable (c.replace set.1))
    (hstride : Stride a b more) : Underway c set b fun i => ds i ++ more i := by
  have hp := replace_placed hc set.2
  cases h with
  | waiting =>
    cases hstride with
    | stream hturn | connected hturn | answered hturn => cases hturn
    | lock hturn =>
      cases hturn
      have hnodup : (c.replace set.1).2.pending.Nodup := hp.pending ▸ hp.placed.filter _
      exact .placed ((Tried.start hnodup).drop hr.sub fun j hj => (hp.stale hj).2)
  | placed h => exact .placed (h.stride hr hstride)

/-! ## When an update waits for nothing any more -/

section Finished

variable {c' : Channel ς} {set : AddressSet} {a : String} {i : Nat}

/-- A member that was ready is as it was. -/
theorem Tried.was_ready (h : Tried r [] [] c' ds) (hp : Placed c set r) (hc : c.Distinct)
    (hm : (a, i) ∈ c.members) (ha : a ∈ set.addrs) (hready : c.stateOf i = .ready) :
    c'.subchannel? i = c.subchannel? i ∧ ds i = [] := by
  obtain ⟨sub, hsub⟩ := subchannel?_of_lt (hc.lt hm)
  have hout : i ∉ r.2.pending := fun hi =>
    (hp.mem_pending.1 hi).2 ((hp.stateOf (hc.lt hm)).trans hready)
  refine ⟨?_, h.quiet i (.inl hout)⟩
  rw [h.steady i (List.mem_map_of_mem (hp.kept hm ha)) hout, hp.known hsub, hsub]

/-- A member that was not ready, or was not there, is as its connect left it. -/
theorem Tried.was_dialed (h : Tried r [] [] c' ds) (hp : Placed c set r) (hc : c.Distinct)
    (hr : Dialable r) (hm : (a, i) ∈ r.1.members)
    (hnot : ¬ ((a, i) ∈ c.members ∧ c.stateOf i = .ready)) :
    ∃ (x : Except Fault ς) (sub : Subchannel ς), sub.approach = .dialing ∧ ds i = [x] ∧
      c'.subchannel? i = some (sub.tried x) := by
  have hi : i ∈ r.2.pending := by
    refine hp.mem_pending.2 ⟨List.mem_map_of_mem hm, fun hready => ?_⟩
    rcases hp.source hm with hold | ⟨-, -, hnew⟩
    · exact hnot ⟨hold, (hp.stateOf (hc.lt hold)).symm.trans hready⟩
    · rw [stateOf_of_subchannel? hnew] at hready
      cases hready
  obtain ⟨x, hx, hsub'⟩ := h.done i hi List.not_mem_nil
  obtain ⟨sub, hsub, happroach⟩ := hr.approach i hi
  exact ⟨x, sub, happroach, hx, by rw [hsub', hsub]; rfl⟩

end Finished

namespace Traffic

variable {s : Traffic ς} {a : Act ς} {t : Nat}

/-! ## Nobody else comes -/

def Act.isComing : Act ς → Bool
  | update _ | invoke _ | close => true
  | _ => false

/-- The end of a connect of a subchannel, if somebody waits for it. -/
def dialed (s : Traffic ς) (i : Nat) : Act ς → Option (Except Fault ς)
  | .connected t j x =>
    if j = i ∧ (s.tasks[t]?.bind (Task.connected? j x s.channel)).isSome then some x else none
  | _ => none

/-- What the connects of a subchannel have come to in a run. -/
def dials (s : Traffic ς) (i : Nat) : List (Act ς) → List (Except Fault ς)
  | [] => []
  | a :: acts => (s.dialed i a).toList ++ (s.act a).dials i acts

theorem dials_concat (i : Nat) (acts : List (Act ς)) (a : Act ς) :
    s.dials i (acts ++ [a]) = s.dials i acts ++ ((s.run acts).dialed i a).toList := by
  induction acts generalizing s with
  | nil => exact List.append_nil _
  | cons b acts ih =>
    show (s.dialed i b).toList ++ (s.act b).dials i (acts ++ [a]) = _
    rw [ih, ← List.append_assoc]
    rfl

theorem Lone.proceed_cases {x : Channel ς × Task} (h : Lone s t x) (u : Nat)
    (turn? : Task → Option (Channel ς × Task)) (hended : ∀ r, turn? (.ended r) = none) :
    (s.tasks[u]?.bind turn?).isSome = false ∧ s.proceed u turn? = s ∨
      ∃ y, turn? x.2 = some y ∧ (s.tasks[u]?.bind turn?).isSome = true ∧
        Lone (s.proceed u turn?) t y := by
  by_cases hu : u = t
  · subst hu
    rcases hy : turn? x.2 with _ | y
    · refine .inl ?_
      have hbind : s.tasks[u]?.bind turn? = none := by rw [h.task, Option.bind_some, hy]
      refine ⟨by rw [hbind]; rfl, ?_⟩
      unfold Traffic.proceed
      rw [hbind]
    · exact .inr ⟨y, rfl, by rw [h.task, Option.bind_some, hy]; rfl, h.proceed hy⟩
  · refine .inl ?_
    have hbind : s.tasks[u]?.bind turn? = none := by
      rcases hk : s.tasks[u]? with _ | k
      · rfl
      · obtain ⟨r, rfl⟩ := Task.ended_of_hasEnded (task_of_mem hk ▸ h.others u hu)
        exact hended r
    refine ⟨by rw [hbind]; rfl, ?_⟩
    unfold Traffic.proceed
    rw [hbind]

/-- While nobody comes, a step is a stride of the lone task, or changes nothing. -/
theorem Lone.act {x : Channel ς × Task} (h : Lone s t x) (ha : a.isComing = false) :
    (s.act a = s ∧ ∀ i, s.dialed i a = none) ∨
      ∃ y more, Stride x y more ∧ Lone (s.act a) t y ∧ ∀ i, (s.dialed i a).toList = more i := by
  obtain ⟨c, k⟩ := x
  obtain rfl : s.channel = c := h.channel
  cases a with
  | update | invoke | close => cases ha
  | lock u =>
    by_cases hfree : s.unlocked = true
    · rw [Traffic.act, if_pos hfree]
      rcases h.proceed_cases u (Task.lock? s.channel) (fun _ => rfl) with ⟨-, hs⟩ | ⟨y, hy, -, hlone⟩
      · exact .inl ⟨hs, fun _ => rfl⟩
      · exact .inr ⟨y, _, .lock hy, hlone, fun _ => rfl⟩
    · exact .inl ⟨if_neg hfree, fun _ => rfl⟩
  | stream u i =>
    by_cases hfree : s.free i = true
    · rw [Traffic.act, if_pos hfree]
      rcases h.proceed_cases u (Task.stream? i s.channel) (fun _ => rfl) with ⟨-, hs⟩ | ⟨y, hy, -, hlone⟩
      · exact .inl ⟨hs, fun _ => rfl⟩
      · exact .inr ⟨y, _, .stream hy, hlone, fun _ => rfl⟩
    · exact .inl ⟨if_neg hfree, fun _ => rfl⟩
  | connected u j r =>
    rcases h.proceed_cases u (Task.connected? j r s.channel) (fun _ => rfl) with
      ⟨hnone, hs⟩ | ⟨y, hy, hsome, hlone⟩
    · refine .inl ⟨hs, fun i => if_neg ?_⟩
      rw [hnone]
      rintro ⟨-, hsome⟩
      cases hsome
    · refine .inr ⟨y, _, .connected hy, hlone, fun i => ?_⟩
      simp only [dialed, hsome, and_true, eq_comm (a := j)]
      split <;> rfl
  | answered u r =>
    rcases h.proceed_cases u (Task.answered? r s.channel) (fun _ => rfl) with ⟨-, hs⟩ | ⟨y, hy, -, hlone⟩
    · exact .inl ⟨hs, fun _ => rfl⟩
    · exact .inr ⟨y, _, .answered hy, hlone, fun _ => rfl⟩

/-! ## The law -/

/-- What an address set makes of a channel, where `ds` are the ends of the connects meanwhile. -/
structure Replacement (c c' : Channel ς) (set : AddressSet) (ds : Dials ς) : Prop where
  /-- There is one member for each address, with a subchannel of its own. -/
  names : c'.members.map (·.1) = set.addrs
  placed : c'.present.Nodup
  addr : ∀ {a i}, (a, i) ∈ c'.members → ∃ sub, c'.subchannel? i = some sub ∧ sub.addr = a
  /-- An address that stays keeps its subchannel; for a new one a subchannel is created. -/
  kept : ∀ {a i}, (a, i) ∈ c.members → a ∈ set.addrs → (a, i) ∈ c'.members
  fresh : ∀ {a i}, (a, i) ∈ c'.members → a ∉ c.members.map (·.1) → c.created.length ≤ i
  /-- What stays and was ready is as it was, and was not dialed. -/
  steady : ∀ {a i}, (a, i) ∈ c.members → a ∈ set.addrs → c.stateOf i = .ready →
    c'.subchannel? i = c.subchannel? i ∧ ds i = []
  /-- Any other member was dialed once, and is as its connect left it. -/
  dialed : ∀ {a i}, (a, i) ∈ c'.members → ¬ ((a, i) ∈ c.members ∧ c.stateOf i = .ready) →
    ∃ x, ds i = [x] ∧ c'.subchannel? i = some (match x with
      | .ok stream => { addr := a, state := .ready, stream := some stream }
      | .error _ => { addr := a, state := .transientFailure })
  /-- Whatever else was ever created is shut down, without a stream, and not rotated over. -/
  dropped : ∀ {i}, i < c'.created.length → i ∉ c'.present → c'.Gone i ∧ i ∉ c'.rotation.entries
  rotation : c'.rotation.entries = c'.present.filter fun i => c'.stateOf i = .ready
  addresses : c'.addresses = set
  opened : c'.closed = false

theorem dialable_replace (h : Sound s) (hrest : s.AtRest) (hopen : s.channel.closed = false)
    (set : Addresses) : Dialable (s.channel.replace set.1) := by
  have hp := replace_placed h.distinct set.2
  generalize s.channel.replace set.1 = r at *
  refine ⟨fun i hi => (hp.mem_pending.1 hi).1, fun i hi => ?_⟩
  · obtain ⟨hmem, hready⟩ := hp.mem_pending.1 hi
    obtain ⟨⟨a, j⟩, hm, rfl⟩ := List.mem_map.1 hmem
    rcases hp.source hm with hold | ⟨-, -, hnew⟩
    · -- nobody has its stream, and it is neither ready nor shut down
      obtain ⟨sub, hsub, -⟩ := h.seated.addr hold
      have hgrip (t : Nat) : (s.task t).grip j = none := by
        obtain ⟨e, he⟩ := hrest.task t
        rw [he]; rfl
      have hsettled : sub.Fits none := hgrip 0 ▸ h.fitting.fits hsub fun u _ => hgrip u
      rw [stateOf_of_subchannel? (hp.known hsub)] at hready
      refine ⟨sub, hp.known hsub, Subchannel.Settled.approach hsettled hready ?_⟩
      exact fun hshut => h.seated.opened hopen (List.mem_map_of_mem hold) ⟨sub, hsub, hshut⟩
    · exact ⟨_, hnew, rfl⟩

theorem underway (h : Sound s) (hrest : s.AtRest) (hopen : s.channel.closed = false)
    (set : Addresses) (acts : List (Act ς)) (hacts : ∀ a ∈ acts, a.isComing = false) :
    ∃ x, Lone ((s.act (.update set)).run acts) s.tasks.length x ∧
      Underway s.channel set x ((s.act (.update set)).dials · acts) := by
  induction acts using List.reverseRecOn with
  | nil =>
    refine ⟨_, lone_enter hrest _, ?_⟩
    unfold beginUpdate
    rw [hopen]
    exact .waiting
  | append_singleton acts a ih =>
    obtain ⟨x, hlone, hunder⟩ := ih fun b hb => hacts b (List.mem_append_left _ hb)
    simp only [run_concat, dials_concat]
    rcases hlone.act (hacts a (List.mem_append_right _ (List.mem_singleton_self a))) with
      ⟨hs, hnone⟩ | ⟨y, more, hstride, hlone', hmore⟩
    · rw [hs]
      simp only [hnone, Option.toList_none, List.append_nil]
      exact ⟨x, hlone, hunder⟩
    · simp only [hmore]
      exact ⟨y, hlone', hunder.stride h.distinct (dialable_replace h hrest hopen set) hstride⟩

/-- An address set that is applied to an open channel, at which nobody is at work, replaces the present
one: whatever has gone before, and whatever the connects come to. -/
theorem updated_in_full (h : s.Fresh) (before acts : List (Act ς)) (set : Addresses)
    (hopen : (s.run before).channel.closed = false) (hrest : (s.run before).AtRest)
    (hacts : ∀ a ∈ acts, a.isComing = false)
    (hdone : (s.run (before ++ .update set :: acts)).AtRest) :
    Replacement (s.run before).channel (s.run (before ++ .update set :: acts)).channel set.1
      ((s.run before).dials · (.update set :: acts)) := by
  have hbefore := h.sound.run before
  have hafter := h.sound.run (before ++ .update set :: acts)
  rw [show s.run (before ++ .update set :: acts) = ((s.run before).act (.update set)).run acts from
    List.foldl_append] at *
  show Replacement _ _ _ (((s.run before).act (.update set)).dials · acts)
  obtain ⟨⟨c, k⟩, hlone, hunder⟩ := underway hbefore hrest hopen set acts hacts
  have hdialable := dialable_replace hbefore hrest hopen set
  generalize ((s.run before).act (.update set)).run acts = s' at *
  generalize s.run before = s₀ at *
  -- the update has come to an end, so it waits for nothing any more
  obtain ⟨e, rfl⟩ : ∃ e, k = .ended e :=
    Task.ended_of_hasEnded (hdone k (List.mem_of_getElem? hlone.task))
  cases hunder with | placed hphase =>
  cases hphase with | ended htried hrotation =>
  obtain rfl : s'.channel = c := hlone.channel
  have hp := replace_placed hbefore.distinct set.2
  have hnames := (replace_spec hbefore.distinct.named set.1).names
  have hclosed := (replace_spec hbefore.distinct.named set.1).closed
  generalize s₀.channel.replace set.1 = r at *
  have hopened : s'.channel.closed = false := (htried.closed.trans hclosed).trans hopen
  have hrotation' : s'.channel.rotation.entries =
      s'.channel.present.filter fun i => s'.channel.stateOf i = .ready :=
    hrotation.trans (if_neg (by rw [hopened]; exact Bool.false_ne_true))
  exact {
    names := htried.members ▸ hnames
    placed := hafter.seated.placed
    addr := hafter.seated.addr
    kept := fun hm ha => htried.members ▸ hp.kept hm ha
    fresh := fun hm hnew => by
      rcases hp.source (htried.members ▸ hm) with hold | ⟨-, hle, -⟩
      · exact absurd (List.mem_map_of_mem hold) hnew
      · exact hle
    steady := htried.was_ready hp hbefore.distinct
    dialed := fun {a i} hm hnot => by
      obtain ⟨x, sub, happroach, hx, hsub⟩ :=
        htried.was_dialed hp hbefore.distinct hdialable (htried.members ▸ hm) hnot
      rw [Subchannel.tried_of_dialing happroach] at hsub
      refine ⟨x, hx, ?_⟩
      -- its address is the member's
      obtain ⟨sub', hknown, haddr⟩ := hafter.seated.addr hm
      rw [hsub] at hknown ⊢
      cases hknown
      cases x <;> cases haddr <;> rfl
    dropped := fun {i} hi hout => by
      refine ⟨?_, fun hmem => hout ?_⟩
      · rcases hafter.kept.place hi with hin | ⟨t, ht⟩ | ⟨hgone, -⟩
        · exact absurd hin hout
        · obtain ⟨e, he⟩ := hdone.task t
          rw [he] at ht; cases ht
        · exact hgone
      · rw [hrotation'] at hmem
        exact (List.mem_filter.1 hmem).1
    rotation := hrotation'
    addresses := htried.addresses.trans hp.addresses
    opened := hopened }

/-- Three addresses, of which the second cannot be reached at first, and a call. -/
def threeAddresses : List (Act Nat) :=
  [.update ⟨⟨[{ addr := "a" }, { addr := "b" }, { addr := "c" }]⟩, by decide⟩, .lock 0, .stream 0 2,
    .stream 0 0, .connected 0 0 (.ok 10), .stream 0 1, .connected 0 2 (.ok 12),
    .connected 0 1 (.error (.connection "refused")),
    .invoke { id := 1, method := "m", args := .null }, .stream 1 0, .answered 1 (.ok (.ofResult 1 .null))]

/-- The third address goes, and a fourth one comes. The second is reached now, the fourth is not. -/
theorem third_replaced :
    let s : Traffic Nat := { channel := { target := .ofService "test" "orders" } }
    let set : Addresses := ⟨⟨[{ addr := "a" }, { addr := "b" }, { addr := "d" }]⟩, by decide⟩
    let acts : List (Act Nat) := [.lock 2, .stream 2 2, .stream 2 1, .stream 2 3,
      .connected 2 3 (.error (.connection "refused")), .connected 2 1 (.ok 11)]
    let s' := s.run (threeAddresses ++ .update set :: acts)
    Replacement (s.run threeAddresses).channel s'.channel set.1
        ((s.run threeAddresses).dials · (.update set :: acts)) ∧
      s'.channel.members = [("a", 0), ("b", 1), ("d", 3)] ∧
      s'.channel.rotation.entries = [0, 1] ∧ (s'.channel.subchannel? 0).bind (·.stream) = some 10 := by
  intro s set acts s'
  have hrest : (s.run threeAddresses).AtRest := by
    unfold AtRest
    rw [← List.all_eq_true]
    decide +kernel
  have hdone : s'.AtRest := by
    unfold AtRest
    rw [← List.all_eq_true]
    decide +kernel
  exact ⟨updated_in_full ⟨rfl, rfl, rfl, rfl⟩ threeAddresses acts set (by decide +kernel) hrest
    (by decide) hdone, by decide +kernel, by decide +kernel, by decide +kernel⟩

end Traffic

end Muster.Channel
