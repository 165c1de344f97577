/-
Which addresses a set has. Whatever list it is made of, the addresses stand in strictly increasing
order, they are those of the list, and of the entries with one address the set has the last. An ordered
list is told by its members, so this says all of a set.
-/
import Mathlib.Data.List.Dedup
import Mathlib.Data.List.Induction
import Mathlib.Data.List.Sort
import Mathlib.Data.String.Basic
import Muster.Resolver.AddressSet

namespace Muster.AddressSet

variable {a : Address} {addr : String} {as : List Address}

theorem mem_insert : addr ∈ (insert a as).map (·.addr) ↔ addr = a.addr ∨ addr ∈ as.map (·.addr) := by
  induction as with
  | nil => simp [insert]
  | cons b as ih =>
    rw [insert]
    split
    · simp
    · split
      · rename_i heq
        simp [heq]
      · simp only [List.map_cons, List.mem_cons, ih, or_left_comm]

theorem insert_ordered (h : as.Pairwise (·.addr < ·.addr)) :
    (insert a as).Pairwise (·.addr < ·.addr) := by
  induction as with
  | nil => exact List.pairwise_singleton _ _
  | cons b as ih =>
    obtain ⟨hb, has⟩ := List.pairwise_cons.1 h
    rw [insert]
    split
    · rename_i hlt
      rw [List.pairwise_cons]
      refine ⟨?_, h⟩
      intro c hc
      rcases List.mem_cons.1 hc with rfl | hc
      · exact hlt
      · exact lt_trans hlt (hb c hc)
    · rename_i hlt
      split
      · rename_i heq
        rw [List.pairwise_cons]
        exact ⟨heq ▸ hb, has⟩
      · rename_i hne
        rw [List.pairwise_cons]
        refine ⟨?_, ih has⟩
        intro c hc
        rcases mem_insert.1 (List.mem_map_of_mem hc) with hca | hmem
        · rw [hca]
          exact lt_of_le_of_ne (not_lt.1 hlt) (Ne.symm hne)
        · obtain ⟨d, hd, hdc⟩ := List.mem_map.1 hmem
          rw [← hdc]
          exact hb d hd

/-- The set with one more address. -/
theorem ofList_concat (as : List Address) (a : Address) :
    (ofList (as ++ [a])).addresses = insert a (ofList as).addresses := by
  simp only [ofList, List.foldl_append, List.foldl_cons, List.foldl_nil]

theorem ofList_ordered (as : List Address) : (ofList as).addrs.Pairwise (· < ·) := by
  rw [addrs, List.pairwise_map]
  induction as using List.reverseRecOn with
  | nil => exact .nil
  | append_singleton as a ih =>
    rw [ofList_concat]
    exact insert_ordered ih

theorem mem_ofList : addr ∈ (ofList as).addrs ↔ addr ∈ as.map (·.addr) := by
  unfold addrs
  induction as using List.reverseRecOn with
  | nil => rfl
  | append_singleton as a ih =>
    rw [ofList_concat, mem_insert, ih]
    simp [or_comm]

/-! ## The last of an address -/

/-- Into an ordered list an address comes in place of the one with the same `addr`. -/
theorem mem_insert_iff {b : Address} (h : as.Pairwise (·.addr < ·.addr)) :
    b ∈ insert a as ↔ b = a ∨ b ∈ as ∧ b.addr ≠ a.addr := by
  induction as with
  | nil => simp [insert]
  | cons c as ih =>
    obtain ⟨hc, has⟩ := List.pairwise_cons.1 h
    rw [insert]
    split
    · rename_i hlt
      have hall : ∀ d ∈ c :: as, d.addr ≠ a.addr := by
        intro d hd
        rcases List.mem_cons.1 hd with rfl | hd
        · exact ne_of_gt hlt
        · exact ne_of_gt (lt_trans hlt (hc d hd))
      rw [List.mem_cons, and_iff_left_of_imp (hall b)]
    · split
      · rename_i heq
        have hall : b ∈ as → b.addr ≠ a.addr := fun hb => heq ▸ ne_of_gt (hc b hb)
        simp only [List.mem_cons, or_and_right, and_iff_left_of_imp hall]
        constructor
        · rintro (hb | hb)
          · exact .inl hb
          · exact .inr (.inr hb)
        · rintro (hb | ⟨rfl, hne⟩ | hb)
          · exact .inl hb
          · exact absurd heq.symm hne
          · exact .inr hb
      · rename_i hne
        have hself : b = c → b.addr ≠ a.addr := by
          rintro rfl
          exact Ne.symm hne
        simp only [List.mem_cons, ih has, or_and_right, and_iff_left_of_imp hself, or_left_comm]

/-- Of the entries with one address a set has the last. -/
theorem mem_addresses_ofList :
    a ∈ (ofList as).addresses ↔ (as.filter (·.addr == a.addr)).getLast? = some a := by
  induction as using List.reverseRecOn with
  | nil => simp [ofList]
  | append_singleton as b ih =>
    have hordered := List.pairwise_map.1 (ofList_ordered as)
    rw [ofList_concat, mem_insert_iff hordered, ih, List.filter_append, List.getLast?_append]
    by_cases hb : b.addr = a.addr
    · simp [hb, eq_comm]
    · have hne : a ≠ b := by
        rintro rfl
        exact hb rfl
      simp [hb, hne, Ne.symm hb]

/-- Ordered lists with the same addresses are the same list. -/
theorem ordered_ext {bs : List Address} (has : as.Pairwise (·.addr < ·.addr))
    (hbs : bs.Pairwise (·.addr < ·.addr)) (h : ∀ a, a ∈ as ↔ a ∈ bs) : as = bs := by
  have : Std.Irrefl fun a b : Address => a.addr < b.addr := ⟨fun a => lt_irrefl a.addr⟩
  have : Std.Antisymm fun a b : Address => a.addr < b.addr :=
    ⟨fun a b hab hba => absurd hba (lt_asymm hab)⟩
  exact has.eq_of_mem_iff hbs h

/-- Lists with the same last entry for each address make the same set. -/
theorem ofList_congr {bs : List Address}
    (h : ∀ addr, (bs.filter (·.addr == addr)).getLast? = (as.filter (·.addr == addr)).getLast?) :
    ofList bs = ofList as := by
  have hsame : (ofList bs).addresses = (ofList as).addresses := by
    apply ordered_ext (List.pairwise_map.1 (ofList_ordered bs)) (List.pairwise_map.1 (ofList_ordered as))
    intro a
    rw [mem_addresses_ofList, mem_addresses_ofList, h]
  exact congrArg AddressSet.mk hsame

/-- An ordered list makes the set of its own addresses. -/
theorem ofList_of_ordered (h : as.Pairwise (·.addr < ·.addr)) : (ofList as).addresses = as := by
  have honce : (as.map (·.addr)).Nodup := List.pairwise_map.2 (h.imp ne_of_lt)
  apply ordered_ext (List.pairwise_map.1 (ofList_ordered as)) h
  intro a
  rw [mem_addresses_ofList]
  constructor
  · intro hlast
    exact (List.mem_filter.1 (List.mem_of_getLast? hlast)).1
  · intro ha
    have hmem : a ∈ as.filter (·.addr == a.addr) := List.mem_filter.2 ⟨ha, beq_self_eq_true _⟩
    obtain ⟨b, hb⟩ := Option.isSome_iff_exists.1 (List.getLast?_isSome.2 (List.ne_nil_of_mem hmem))
    obtain ⟨hbas, haddr⟩ := List.mem_filter.1 (List.mem_of_getLast? hb)
    rw [hb, List.inj_on_of_nodup_map honce hbas ha (beq_iff_eq.1 haddr)]

/-! ## Looking at a set -/

theorem contains_ofList : (ofList as).contains addr = true ↔ addr ∈ as.map (·.addr) := by
  rw [← mem_ofList]
  simp [contains, addrs]

/-- A set has as many addresses as its list has different ones. -/
theorem size_ofList (as : List Address) : (ofList as).size = (as.map (·.addr)).dedup.length := by
  have honce : (ofList as).addrs.Nodup := (ofList_ordered as).imp ne_of_lt
  have hsame : (ofList as).addrs.Perm (as.map (·.addr)).dedup := by
    rw [List.perm_ext_iff_of_nodup honce (List.nodup_dedup _)]
    intro addr
    rw [mem_ofList, List.mem_dedup]
  rw [← hsame.length_eq]
  exact (List.length_map _).symm

/-! ## Records -/

/-- The set of records has the version of the last record at an address. -/
theorem mem_addresses_ofRecords {rs : List Registry.Record} : a ∈ (ofRecords rs).addresses ↔
    (rs.filter (·.address == a.addr)).getLast?.map (·.version) = some a.version := by
  rw [ofRecords, mem_addresses_ofList, List.filter_map, List.getLast?_map]
  show (rs.filter (·.address == a.addr)).getLast?.map (fun r => (⟨r.address, r.version⟩ : Address)) = _ ↔ _
  cases hlast : (rs.filter (·.address == a.addr)).getLast? with
  | none => exact iff_of_false nofun nofun
  | some r =>
    have haddr : r.address = a.addr :=
      beq_iff_eq.1 (List.mem_filter.1 (List.mem_of_getLast? hlast)).2
    obtain ⟨addr, version⟩ := a
    rw [Option.map_some, Option.map_some, Option.some.injEq, Option.some.injEq, Address.mk.injEq,
      and_iff_right haddr]

theorem mem_ofRecords {rs : List Registry.Record} :
    addr ∈ (ofRecords rs).addrs ↔ addr ∈ rs.map (·.address) := by
  rw [ofRecords, mem_ofList, List.map_map]
  rfl

end Muster.AddressSet
