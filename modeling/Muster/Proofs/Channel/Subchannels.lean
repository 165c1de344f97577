/-
What becomes of the subchannels of a channel. One that is shut down stays so, and one that is shut
down and has no stream any more stays without, unless somebody who has had its stream before puts one
there. An address set that is put in place keeps the subchannels of the addresses that stay, creates
those of new addresses, and gives up the others.
-/
import Muster.Channel.Basic
import Muster.Proofs.Lookup

namespace Muster.Channel

variable {ς : Type}

/-! ## One subchannel -/

namespace Subchannel

variable {s : Subchannel ς}

theorem enter_shut (h : s.state = .shutdown) (next : State) : s.enter next = s := if_pos h

theorem endConnect_shut (h : s.state = .shutdown) (r : Except Fault ς) :
    (s.endConnect r).state = .shutdown := by
  cases r with
  | ok stream =>
    have hs : ({ s with stream := some stream } : Subchannel ς).state = .shutdown := h
    rw [endConnect, enter_shut hs]; exact h
  | error f => rw [endConnect, enter_shut h]; exact h

theorem endExchange_shut (h : s.state = .shutdown) (r : Except Fault Wire.Response) :
    (s.endExchange r).state = .shutdown := by
  cases r with
  | ok response => exact h
  | error f =>
    have hs : ({ s with stream := none } : Subchannel ς).state = .shutdown := h
    rw [endExchange, enter_shut hs]; exact h

/-- What is shut down is not dialed. -/
theorem approach_shut (h : s.state = .shutdown) : s.approach = .refused (shutDownFault s.addr) :=
  if_pos h

end Subchannel

/-! ## Shut down, and gone -/

/-- A subchannel is shut down. -/
def Shut (c : Channel ς) (i : Nat) : Prop :=
  ∃ s, c.subchannel? i = some s ∧ s.state = .shutdown

/-- A subchannel is shut down and has no stream. -/
def Gone (c : Channel ς) (i : Nat) : Prop :=
  ∃ s, c.subchannel? i = some s ∧ s.state = .shutdown ∧ s.stream = none

variable {c c' c'' : Channel ς} {i j : Nat} {f : Subchannel ς → Subchannel ς}

theorem subchannel?_update (c : Channel ς) (i : Nat) (f : Subchannel ς → Subchannel ς) (j : Nat) :
    (c.update i f).subchannel? j =
      if j = i then (c.subchannel? j).map f else c.subchannel? j := by
  show (c.created.modify i f)[j]? = _
  rw [List.getElem?_modify]
  show (fun a => if i = j then f a else a) <$> c.created[j]? =
    if j = i then c.created[j]?.map f else c.created[j]?
  by_cases h : j = i
  · simp [h]
  · simp [h, Ne.symm h]

theorem Gone.shut (h : c.Gone i) : c.Shut i :=
  have ⟨s, hs, hstate, _⟩ := h
  ⟨s, hs, hstate⟩

theorem subchannel?_of_lt (h : i < c.created.length) : ∃ s, c.subchannel? i = some s :=
  ⟨_, List.getElem?_eq_getElem h⟩

theorem shut_beginShutdown (h : i < c.created.length) :
    (c.update i Subchannel.beginShutdown).Shut i := by
  obtain ⟨s, hs⟩ := subchannel?_of_lt h
  exact ⟨s.beginShutdown, by rw [subchannel?_update, if_pos rfl, hs]; rfl, rfl⟩

theorem gone_endShutdown (h : c.Shut i) : (c.update i Subchannel.endShutdown).Gone i := by
  obtain ⟨s, hs, hstate⟩ := h
  exact ⟨s.endShutdown, by rw [subchannel?_update, if_pos rfl, hs]; rfl, hstate, rfl⟩

theorem not_gone_of_dialing (h : (c.subchannel? i).map Subchannel.approach = some .dialing) :
    ¬ c.Gone i := by
  rintro ⟨s, hs, hstate, -⟩
  rw [hs, Option.map_some, Subchannel.approach_shut hstate] at h
  cases h

theorem not_gone_of_standing {stream : ς}
    (h : (c.subchannel? i).map Subchannel.approach = some (.standing stream)) : ¬ c.Gone i := by
  rintro ⟨s, hs, hstate, -⟩
  rw [hs, Option.map_some, Subchannel.approach_shut hstate] at h
  cases h

/-- A pick is a member that is offered, and moves only the cursor. -/
theorem next_spec {pick : Option Nat} (h : c.next = (pick, c')) :
    (∃ cursor, c' = { c with rotation := { c.rotation with cursor } }) ∧
      ∀ i, pick = some i → i ∈ c.rotation.entries := by
  unfold next RoundRobin.next at h
  dsimp only at h
  split at h
  · cases h
    exact ⟨⟨c.rotation.cursor, rfl⟩, nofun⟩
  · rename_i hget
    cases h
    refine ⟨⟨_, rfl⟩, ?_⟩
    rintro i ⟨⟩
    exact List.mem_of_getElem? hget

/-- A channel goes on from another one with the same members. Nobody opens what is shut down, and
nobody gives a stream to what is gone but those who hold one. -/
structure Follows (held : Nat → Prop) (c c' : Channel ς) : Prop where
  members : c'.members = c.members
  closed : c'.closed = c.closed
  length : c'.created.length = c.created.length
  shut : ∀ {i}, c.Shut i → c'.Shut i
  gone : ∀ {i}, ¬ held i → c.Gone i → c'.Gone i
  emptied : c.closed = true → c.rotation.entries = [] → c'.rotation.entries = []

namespace Follows

variable {held : Nat → Prop}

theorem refl (c : Channel ς) : Follows held c c :=
  ⟨rfl, rfl, rfl, fun h => h, fun _ h => h, fun _ h => h⟩

theorem trans (h : Follows held c c') (g : Follows held c' c'') : Follows held c c'' :=
  ⟨g.members.trans h.members, g.closed.trans h.closed, g.length.trans h.length,
    fun hi => g.shut (h.shut hi), fun hh hi => g.gone hh (h.gone hh hi),
    fun hc he => g.emptied (h.closed.trans hc) (h.emptied hc he)⟩

/-- One subchannel changes. -/
theorem update (hshut : ∀ s, s.state = .shutdown → (f s).state = .shutdown)
    (hgone : held i ∨ ∀ s, s.state = .shutdown → s.stream = none → (f s).stream = none) :
    Follows held c (c.update i f) := by
  refine ⟨rfl, rfl, List.length_modify .., fun {j} hj => ?_, fun {j} hh hj => ?_, fun _ h => h⟩
  · obtain ⟨s, hs, hstate⟩ := hj
    by_cases hji : j = i
    · exact ⟨f s, by rw [subchannel?_update, if_pos hji, hs]; rfl, hshut s hstate⟩
    · exact ⟨s, by rw [subchannel?_update, if_neg hji, hs], hstate⟩
  · obtain ⟨s, hs, hstate, hstream⟩ := hj
    by_cases hji : j = i
    · subst hji
      exact ⟨f s, by rw [subchannel?_update, if_pos rfl, hs]; rfl, hshut s hstate,
        hgone.resolve_left hh s hstate hstream⟩
    · exact ⟨s, by rw [subchannel?_update, if_neg hji, hs], hstate, hstream⟩

theorem beginConnect : Follows held c (c.update i Subchannel.beginConnect) :=
  update (fun _ h => (congrArg Subchannel.state (Subchannel.enter_shut h .connecting)).trans h)
    (.inr fun _ h hs => (congrArg Subchannel.stream (Subchannel.enter_shut h .connecting)).trans hs)

theorem endConnect (h : held i) (r : Except Fault ς) :
    Follows held c (c.update i fun s => s.endConnect r) :=
  update (fun _ hs => Subchannel.endConnect_shut hs r) (.inl h)

theorem endExchange (h : held i) (r : Except Fault Wire.Response) :
    Follows held c (c.update i fun s => s.endExchange r) :=
  update (fun _ hs => Subchannel.endExchange_shut hs r) (.inl h)

theorem beginShutdown : Follows held c (c.update i Subchannel.beginShutdown) :=
  update (fun _ _ => rfl) (.inr fun _ _ hs => hs)

theorem endShutdown : Follows held c (c.update i Subchannel.endShutdown) :=
  update (fun _ h => h) (.inr fun _ _ _ => rfl)

theorem next : Follows held c c.next.2 := by
  obtain ⟨⟨cursor, heq⟩, -⟩ := next_spec (c := c) (Prod.eta c.next).symm
  rw [heq]
  exact ⟨rfl, rfl, rfl, fun h => h, fun _ h => h, fun _ h => h⟩

theorem rotate : Follows held c c.rotate :=
  ⟨rfl, rfl, rfl, fun h => h, fun _ h => h, fun hc _ => if_pos hc⟩

theorem resolved : Follows held c c.resolved :=
  ⟨rfl, rfl, rfl, fun h => h, fun _ h => h, fun _ h => h⟩

end Follows

/-- In a closed channel nothing is rotated over. -/
theorem rotate_closed (h : c.closed = true) : c.rotate.rotation.entries = [] := if_pos h

/-! ## Connecting and giving up -/

theorem connectAll_created {ω : Type} (net : Network ω ς) (is : List Nat) (c : Channel ς) (w : ω) :
    ∃ created, (c.connectAll net is w).1 = { c with created } := by
  induction is generalizing c w with
  | nil => exact ⟨c.created, rfl⟩
  | cons i is ih =>
    unfold connectAll
    split
    · exact ih c w
    · rename_i s _
      exact ih (c.update i fun _ => (s.connect net c.options.connectTimeout w).2.1) _

theorem shutdownAll_created (is : List Nat) (c : Channel ς) :
    ∃ created, c.shutdownAll is = { c with created } := by
  induction is generalizing c with
  | nil => exact ⟨c.created, rfl⟩
  | cons i is ih => exact ih (c.update i Subchannel.shutdown)

/-! ## Putting an address set in place -/

/-- What the members for a list of addresses are: for each address the one that is there, or one that
is created. -/
structure MembersFor (c : Channel ς) (as : List Address) (r : Channel ς × List (String × Nat)) :
    Prop where
  members : r.1.members = c.members
  closed : r.1.closed = c.closed
  created : ∃ new, r.1.created = c.created ++ new
  names : r.2.map (·.1) = as.map (·.addr)
  old : ∀ {a i}, c.members.lookup a = some i → a ∈ as.map (·.addr) → i ∈ r.2.map (·.2)
  new : ∀ {i}, c.created.length ≤ i → i < r.1.created.length → i ∈ r.2.map (·.2)
  range : ∀ {i}, i ∈ r.2.map (·.2) → i ∈ c.members.map (·.2) ∨ i < r.1.created.length

theorem membersFor_spec (c : Channel ς) (as : List Address) :
    MembersFor c as (c.membersFor as) := by
  induction as generalizing c with
  | nil =>
    refine ⟨rfl, rfl, ⟨[], (List.append_nil _).symm⟩, rfl, fun _ h => ?_, fun h g => ?_, fun h => ?_⟩
    · cases h
    · exact absurd g (Nat.not_lt.2 h)
    · cases h
  | cons a as ih =>
    unfold membersFor
    rcases hl : c.members.lookup a.addr with _ | i
    · -- a new one
      have h := ih { c with created := c.created ++ [{ addr := a.addr }] }
      obtain ⟨new, hnew⟩ := h.created
      have hlen : c.created.length < (c.created ++ [({ addr := a.addr } : Subchannel ς)] ++ new).length := by
        simp
      refine ⟨h.members, h.closed, ⟨_ :: new, hnew.trans (List.append_assoc ..)⟩,
        congrArg (a.addr :: ·) h.names, fun hb hm => ?_, fun {j} hle hlt => ?_, fun {j} hj => ?_⟩
      · rcases List.mem_cons.1 hm with rfl | hm
        · rw [hl] at hb; cases hb
        · exact List.mem_cons_of_mem _ (h.old hb hm)
      · rcases Nat.eq_or_lt_of_le hle with rfl | hle
        · exact List.mem_cons_self
        · exact List.mem_cons_of_mem _ (h.new (by simp; omega) hlt)
      · rcases List.mem_cons.1 hj with rfl | hj
        · exact .inr (Nat.lt_of_lt_of_eq hlen (congrArg List.length hnew).symm)
        · exact h.range hj
    · have h := ih c
      refine ⟨h.members, h.closed, h.created, congrArg (a.addr :: ·) h.names, fun {b j} hb hm => ?_,
        fun hle hlt => List.mem_cons_of_mem _ (h.new hle hlt), fun {j} hj => ?_⟩
      · rcases List.mem_cons.1 hm with rfl | hm
        · rw [hl] at hb; cases hb; exact List.mem_cons_self
        · exact List.mem_cons_of_mem _ (h.old hb hm)
      · rcases List.mem_cons.1 hj with rfl | hj
        · exact .inl (List.mem_map_of_mem (mem_of_lookup hl))
        · exact h.range hj

/-- What is left of the subchannels when an address set is put in place. -/
structure Replaced (c : Channel ς) (set : AddressSet) (r : Channel ς × Update) : Prop where
  closed : r.1.closed = c.closed
  created : ∃ new, r.1.created = c.created ++ new
  names : r.1.members.map (·.1) = set.addrs
  old : ∀ {i}, i ∈ c.present → i ∈ r.1.present ∨ i ∈ r.2.stale
  new : ∀ {i}, c.created.length ≤ i → i < r.1.created.length → i ∈ r.1.present
  range : ∀ {i}, i ∈ r.1.present → i ∈ c.present ∨ i < r.1.created.length
  stale : ∀ {i}, i ∈ r.2.stale → i ∈ c.present
  emptied : c.closed = true → r.1.rotation.entries = []

theorem replace_spec (hn : (c.members.map (·.1)).Nodup) (set : AddressSet) :
    Replaced c set (c.replace set) := by
  have h := membersFor_spec c set.addresses
  refine ⟨h.closed, h.created, h.names, fun {i} hi => ?_, h.new, h.range, fun {i} hi => ?_,
    fun hc => rotate_closed (h.closed.trans hc)⟩
  · obtain ⟨⟨a, j⟩, hm, rfl⟩ := List.mem_map.1 hi
    by_cases ha : set.contains a = true
    · obtain ⟨b, hb, hab⟩ := List.any_eq_true.1 ha
      exact .inl (h.old (lookup_of_mem hn hm) (List.mem_map.2 ⟨b, hb, by simpa using hab⟩))
    · exact .inr (List.mem_map.2 ⟨(a, j), List.mem_filter.2 ⟨hm, by simpa using ha⟩, rfl⟩)
  · obtain ⟨m, hm, rfl⟩ := List.mem_map.1 hi
    exact List.mem_map.2 ⟨m, (List.mem_filter.1 hm).1, rfl⟩

end Muster.Channel
