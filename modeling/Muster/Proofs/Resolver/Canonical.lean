/-
The addresses of a service in one form. A set depends on nothing but the last entry of each address in
the list it is made of, so that making a set of a set changes nothing, and neither does any reordering
that leaves entries of one address in their order. Two stores that hold the same keys with the same
values are resolved to the same set. Main statement: `canonical`.
-/
import Muster.Proofs.Registry.Contents

namespace Muster.AddressSet

open Registry (Holds Record Service listService memory)

/-- A set has the addresses of its list in strictly increasing order, each with the version that stands
last with it. Its own addresses make it again, and so does any list that has the same entries of each
address in the same order. The set of records has the addresses of the records, each with the version of
the last record there; and stores that hold the same map from keys to values are resolved alike. -/
theorem canonical (as : List Address) :
    ((ofList as).addrs.Pairwise (· < ·) ∧
      (∀ addr, addr ∈ (ofList as).addrs ↔ addr ∈ as.map (·.addr)) ∧
      ∀ a, a ∈ (ofList as).addresses ↔ (as.filter (·.addr == a.addr)).getLast? = some a) ∧
    ofList (ofList as).addresses = ofList as ∧
    (∀ bs : List Address, (∀ addr, bs.filter (·.addr == addr) = as.filter (·.addr == addr)) →
      ofList bs = ofList as) ∧
    (∀ addr, (ofList as).contains addr = true ↔ addr ∈ as.map (·.addr)) ∧
    (ofList as).size = (as.map (·.addr)).dedup.length ∧
    (∀ rs : List Record, ofRecords rs = ofList (rs.map fun r => ⟨r.address, r.version⟩) ∧
      ∀ a, a ∈ (ofRecords rs).addresses ↔
        (rs.filter (·.address == a.addr)).getLast?.map (·.version) = some a.version) ∧
    ∀ (svc : Service) (attempts attempts' : Nat) (s t : Store) (m : String → Option String),
      Holds s.entries m → Holds t.entries m →
        ∃ rs, (listService memory svc s).1 = .ok rs ∧
          (Resolver.resolve memory svc attempts s).1 = .ok (ofRecords (rs.map (·.2))) ∧
          (Resolver.resolve memory svc attempts' t).1 = .ok (ofRecords (rs.map (·.2))) := by
  have hordered := ofList_ordered as
  refine ⟨⟨hordered, ?_, ?_⟩, ?_, ?_, ?_, size_ofList as, ?_, ?_⟩
  · exact fun addr => mem_ofList
  · exact fun a => mem_addresses_ofList
  · exact congrArg AddressSet.mk (ofList_of_ordered (List.pairwise_map.1 hordered))
  · intro bs hsame
    apply ofList_congr
    intro addr
    rw [hsame]
  · exact fun addr => contains_ofList
  · exact fun rs => ⟨rfl, fun a => mem_addresses_ofRecords⟩
  · intro svc attempts attempts' s t m hs ht
    have hlist (u : Store) : (listService memory svc u).1 = .ok (Registry.serviceRecords svc u.entries) :=
      Registry.listService_eq_entries svc u
    refine ⟨_, hlist s, Registry.resolve_eq svc s (hlist s) attempts, ?_⟩
    rw [hs.serviceRecords_eq ht]
    exact Registry.resolve_eq svc t (hlist t) attempts'

/-- The second version of an address counts, wherever the other address stands; and two instances that
came in the one order or the other are resolved to the same set. -/
theorem reordered_alike :
    let as : List Address := [⟨"b:1", "1"⟩, ⟨"a:1", "1"⟩, ⟨"b:1", "2"⟩]
    let bs : List Address := [⟨"b:1", "1"⟩, ⟨"b:1", "2"⟩, ⟨"a:1", "1"⟩]
    let svc : Service := { name := "orders" }
    let record : Record := { ip := "10.0.0.5", port := "80" }
    let s : Store := { capacity := 1, entries := [⟨svc.key "1", record.encode, 1⟩, ⟨svc.key "2", "", 2⟩] }
    let t : Store := { capacity := 1, entries := [⟨svc.key "1", record.encode, 2⟩, ⟨svc.key "2", "", 1⟩] }
    ofList as = ⟨[⟨"a:1", "1"⟩, ⟨"b:1", "2"⟩]⟩ ∧ ofList bs = ofList as ∧
      (Resolver.resolve memory svc 1 s).1 = (Resolver.resolve memory svc 3 t).1 := by
  intro as bs svc record s t
  have hlaws := canonical as
  refine ⟨by decide, ?_, ?_⟩
  · apply hlaws.2.2.1
    intro addr
    by_cases hb : addr = "b:1"
    · rw [hb]
      decide
    · have hother : ("b:1" == addr) = false := beq_false_of_ne (Ne.symm hb)
      simp only [as, bs, List.filter_cons, hother, Bool.false_eq_true, if_false]
  · have hs : Registry.Holds s.entries _ := Registry.holds_find? (by decide)
    have ht : Registry.Holds t.entries _ := Registry.holds_find? (by decide)
    have hsame : (fun key => (Store.find? key t.entries).map (·.value)) =
        fun key => (Store.find? key s.entries).map (·.value) := by
      funext key
      simp only [Store.find?, s, t, List.find?_cons, List.find?_nil]
      cases svc.key "1" == key <;> cases svc.key "2" == key <;> rfl
    rw [hsame] at ht
    obtain ⟨rs, -, hrs, hrt⟩ := hlaws.2.2.2.2.2.2 svc 1 3 s t _ hs ht
    rw [hrs, hrt]

end Muster.AddressSet
