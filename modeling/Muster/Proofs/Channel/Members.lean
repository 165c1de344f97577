/-
The members of a channel when an address set is put in place. Each address that stays keeps its
subchannel, each new one gets one that is created for it, and what is stale is a member no more; no two
members share a subchannel.
-/
import Mathlib.Data.List.Nodup
import Muster.Proofs.Channel.Subchannels

namespace Muster.Channel

variable {ς : Type}

/-! ## A member for each address -/

/-- Where the members for a list of addresses come from. -/
structure Joined (c : Channel ς) (as : List Address) (r : Channel ς × List (String × Nat)) : Prop where
  created : ∃ names : List String,
    r.1.created = c.created ++ names.map fun addr => ({ addr } : Subchannel ς)
  kept : ∀ {a i}, c.members.lookup a = some i → a ∈ as.map (·.addr) → (a, i) ∈ r.2
  source : ∀ {a i}, (a, i) ∈ r.2 → c.members.lookup a = some i ∨
    c.members.lookup a = none ∧ c.created.length ≤ i ∧ r.1.subchannel? i = some { addr := a }

theorem membersFor_joined (c : Channel ς) (as : List Address) : Joined c as (c.membersFor as) := by
  induction as generalizing c with
  | nil => exact ⟨⟨[], (List.append_nil _).symm⟩, nofun, nofun⟩
  | cons a as ih =>
    unfold membersFor
    rcases hl : c.members.lookup a.addr with _ | i
    · -- a new one, which those that are created later do not displace
      obtain ⟨⟨names, hnew⟩, hkept, hsource⟩ :=
        ih { c with created := c.created ++ [{ addr := a.addr }] }
      refine ⟨⟨a.addr :: names, hnew.trans (List.append_assoc ..)⟩, fun hb hm => ?_, fun hm => ?_⟩
      · rcases List.mem_cons.1 hm with rfl | hm
        · rw [hl] at hb; cases hb
        · exact List.mem_cons_of_mem _ (hkept hb hm)
      · rcases List.mem_cons.1 hm with heq | hm
        · cases heq
          refine .inr ⟨hl, Nat.le_refl _, ?_⟩
          show (membersFor _ as).1.created[c.created.length]? = _
          rw [hnew, List.append_assoc, List.getElem?_append_right (Nat.le_refl _), Nat.sub_self]
          rfl
        · rcases hsource hm with hl | ⟨hnone, hle, hs⟩
          · exact .inl hl
          · rw [List.length_append] at hle
            exact .inr ⟨hnone, Nat.le_of_add_right_le hle, hs⟩
    · obtain ⟨hcreated, hkept, hsource⟩ := ih c
      refine ⟨hcreated, fun hb hm => ?_, fun hm => ?_⟩
      · rcases List.mem_cons.1 hm with rfl | hm
        · rw [hl] at hb; cases hb
          exact List.mem_cons_self
        · exact List.mem_cons_of_mem _ (hkept hb hm)
      · rcases List.mem_cons.1 hm with heq | hm
        · cases heq; exact .inl hl
        · exact hsource hm

theorem stateOf_of_subchannel? {c : Channel ς} {i : Nat} {sub : Subchannel ς}
    (h : c.subchannel? i = some sub) : c.stateOf i = sub.state := by
  rw [stateOf, h, Option.map_some, Option.getD_some]

/-- The members stand at different places, and each has a subchannel. -/
structure Distinct (c : Channel ς) : Prop where
  named : (c.members.map (·.1)).Nodup
  placed : c.present.Nodup
  range : ∀ {i}, i ∈ c.present → i < c.created.length

namespace Distinct

variable {c : Channel ς} {a b : String} {i : Nat}

theorem lookup (h : c.Distinct) (hm : (a, i) ∈ c.members) : c.members.lookup a = some i :=
  lookup_of_mem h.named hm

theorem lt (h : c.Distinct) (hm : (a, i) ∈ c.members) : i < c.created.length :=
  h.range (List.mem_map_of_mem hm)

/-- No two addresses share a subchannel. -/
theorem name (h : c.Distinct) (ha : (a, i) ∈ c.members) (hb : (b, i) ∈ c.members) : a = b :=
  congrArg Prod.fst (List.inj_on_of_nodup_map h.placed ha hb rfl)

end Distinct

/-! ## Putting an address set in place -/

/-- What becomes of the members when an address set is put in place. -/
structure Placed (c : Channel ς) (set : AddressSet) (r : Channel ς × Update) : Prop where
  addresses : r.1.addresses = set
  created : ∃ names : List String,
    r.1.created = c.created ++ names.map fun addr => ({ addr } : Subchannel ς)
  kept : ∀ {a i}, (a, i) ∈ c.members → a ∈ set.addrs → (a, i) ∈ r.1.members
  source : ∀ {a i}, (a, i) ∈ r.1.members → (a, i) ∈ c.members ∨
    a ∉ c.members.map (·.1) ∧ c.created.length ≤ i ∧ r.1.subchannel? i = some { addr := a }
  placed : r.1.present.Nodup
  stale : ∀ {i}, i ∈ r.2.stale → i ∈ c.present ∧ i ∉ r.1.present
  pending : r.2.pending = r.1.present.filter fun i => r.1.stateOf i ≠ .ready

/-- The subchannels that are there stay as they are. -/
theorem Placed.known {c : Channel ς} {set : AddressSet} {r : Channel ς × Update} {i : Nat}
    {sub : Subchannel ς} (h : Placed c set r) (hi : c.subchannel? i = some sub) :
    r.1.subchannel? i = some sub := by
  obtain ⟨names, hnew⟩ := h.created
  show r.1.created[i]? = some sub
  rw [hnew, List.getElem?_append_left (List.getElem?_eq_some_iff.1 hi).1]
  exact hi

theorem Placed.stateOf {c : Channel ς} {set : AddressSet} {r : Channel ς × Update} {i : Nat}
    (h : Placed c set r) (hi : i < c.created.length) : r.1.stateOf i = c.stateOf i := by
  obtain ⟨sub, hsub⟩ := subchannel?_of_lt hi
  rw [stateOf_of_subchannel? hsub, stateOf_of_subchannel? (h.known hsub)]

theorem Placed.mem_pending {c : Channel ς} {set : AddressSet} {r : Channel ς × Update} {i : Nat}
    (h : Placed c set r) : i ∈ r.2.pending ↔ i ∈ r.1.present ∧ r.1.stateOf i ≠ .ready := by
  rw [h.pending, List.mem_filter, decide_eq_true_eq]

theorem replace_placed {c : Channel ς} (h : c.Distinct) {set : AddressSet} (hset : set.addrs.Nodup) :
    Placed c set (c.replace set) := by
  obtain ⟨hcreated, hkept, hsource⟩ := membersFor_joined c set.addresses
  have hnames : (c.membersFor set.addresses).2.map (·.1) = set.addrs :=
    (membersFor_spec c set.addresses).names
  -- where a member comes from tells its address
  have hname {a b : String} {i : Nat} (ha : (a, i) ∈ (c.membersFor set.addresses).2)
      (hb : (b, i) ∈ (c.membersFor set.addresses).2) : a = b := by
    rcases hsource ha with ha | ⟨-, hlea, hsa⟩ <;> rcases hsource hb with hb | ⟨-, hleb, hsb⟩
    · exact h.name (mem_of_lookup ha) (mem_of_lookup hb)
    · exact absurd (h.lt (mem_of_lookup ha)) (Nat.not_lt.2 hleb)
    · exact absurd (h.lt (mem_of_lookup hb)) (Nat.not_lt.2 hlea)
    · rw [hsa] at hsb
      cases hsb; rfl
  refine ⟨rfl, hcreated, fun hm ha => hkept (h.lookup hm) ha, fun {a i} hm => ?_, ?_, fun {i} hi => ?_,
    rfl⟩
  · refine (hsource hm).imp mem_of_lookup (And.imp_left fun hnone ha => ?_)
    obtain ⟨⟨b, j⟩, hb, rfl⟩ := List.mem_map.1 ha
    rw [h.lookup hb] at hnone
    cases hnone
  · refine List.Nodup.map_on ?_ (List.Nodup.of_map (·.1) (hnames ▸ hset))
    rintro ⟨a, i⟩ ha ⟨b, j⟩ hb heq
    cases heq
    rw [hname ha hb]
  · obtain ⟨⟨a, j⟩, hm, rfl⟩ := List.mem_map.1 hi
    obtain ⟨hm, hout⟩ := List.mem_filter.1 hm
    refine ⟨List.mem_map_of_mem hm, fun hin => ?_⟩
    obtain ⟨⟨b, j⟩, hb, rfl⟩ := List.mem_map.1 hin
    have hba : b ∈ set.addrs := hnames ▸ List.mem_map_of_mem hb
    rcases hsource hb with hl | ⟨-, hle, -⟩
    · rw [h.name hm (mem_of_lookup hl)] at hout
      obtain ⟨x, hx, rfl⟩ := List.mem_map.1 hba
      simp only [AddressSet.contains, Bool.not_eq_true', List.any_eq_false] at hout
      exact hout x hx (beq_self_eq_true _)
    · exact absurd (h.lt hm) (Nat.not_lt.2 hle)

end Muster.Channel
