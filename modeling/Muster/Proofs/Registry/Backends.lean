/-
Two keepers of the same keys. What the registry lists of a service does not depend on whether the store
keeps the keys or endpoints that answer with a tree: where the store holds what the tips of the tree
hold, both list the same records. Main statement: `listService_alike`.
-/
import Muster.Proofs.Etcd.Tree
import Muster.Proofs.Registry.Contents

namespace Muster.Registry

open Etcd (Node Answer Refusal)

/-! ## A tree and a store -/

/-- A store holds exactly the tips of a tree that have key and value. -/
def HoldsTips (s : Store) (n : Node) : Prop :=
  ∀ key value, (∃ e ∈ s.entries, e.key = key ∧ e.value = value) ↔
    ∃ t ∈ n.tips, t.key = some key ∧ t.value = some value

variable {n : Node} {s : Store} {svc : Service}

/-- No key stands twice among the entries if no key stands twice among the tips. -/
theorem nodup_keys (h : (n.tips.filterMap (·.key)).Nodup) :
    ((n.tips.filterMap Node.asEntry).map (·.key)).Nodup := by
  unfold List.Nodup at h ⊢
  rw [List.pairwise_filterMap] at h
  rw [List.pairwise_map, List.pairwise_filterMap]
  refine h.imp fun hne e he f hf => ?_
  exact hne e.key (Etcd.Node.asEntry_eq_some_iff.1 he).1 f.key (Etcd.Node.asEntry_eq_some_iff.1 hf).1

theorem mem_tips_iff {key value : String} :
    (∃ e ∈ n.tips.filterMap Node.asEntry, e.key = key ∧ e.value = value) ↔
      ∃ t ∈ n.tips, t.key = some key ∧ t.value = some value := by
  constructor
  · rintro ⟨e, he, rfl, rfl⟩
    obtain ⟨t, ht, hte⟩ := List.mem_filterMap.1 he
    obtain ⟨hkey, hvalue, -⟩ := Etcd.Node.asEntry_eq_some_iff.1 hte
    exact ⟨t, ht, hkey, hvalue⟩
  · rintro ⟨t, ht, hkey, hvalue⟩
    have hte : t.asEntry = some ⟨key, value, t.modifiedIndex⟩ :=
      Etcd.Node.asEntry_eq_some_iff.2 ⟨hkey, hvalue, rfl⟩
    exact ⟨_, List.mem_filterMap.2 ⟨t, ht, hte⟩, rfl, rfl⟩

/-- A store that holds the tips of a tree shows the records of the tree. -/
theorem HoldsTips.serviceRecords_eq (h : HoldsTips s n) (hkeys : (n.tips.filterMap (·.key)).Nodup) :
    serviceRecords svc (n.tips.filterMap Node.asEntry) = serviceRecords svc s.entries := by
  have htree := holds_find? (nodup_keys hkeys)
  have hstore : Holds s.entries _ := fun key value =>
    ((h key value).trans mem_tips_iff.symm).trans (htree key value)
  exact htree.serviceRecords_eq hstore

/-- A store that holds a tip at the directory of a service, and nothing else, shows no records. -/
theorem HoldsTips.serviceRecords_eq_nil (h : HoldsTips s n) (hdir : n.dir = false)
    (hkey : n.key = some svc.directory) : serviceRecords svc s.entries = [] := by
  apply Registry.serviceRecords_eq_nil
  intro e he q hq
  obtain ⟨t, ht, htkey, -⟩ := (h e.key e.value).1 ⟨e, he, rfl, rfl⟩
  rw [Node.tips_of_not_dir hdir, List.mem_singleton] at ht
  subst ht
  rw [hkey, hq] at htkey
  exact svc.key_ne_directory q (Option.some.inj htkey).symm

/-- A store that has nothing below the directory of a service shows no records. -/
theorem serviceRecords_eq_nil_of_bare
    (h : ∀ e ∈ s.entries, Path.isUnder svc.directory e.key = true → e.key = svc.directory) :
    serviceRecords svc s.entries = [] := by
  apply serviceRecords_eq_nil
  intro e he q hq
  exact svc.key_ne_directory q (hq ▸ h e he (hq ▸ svc.isUnder_key q))

/-! ## The keepers -/

/-- What the registry asks for when it lists a directory. -/
def listing (dir : String) : Etcd.Ask :=
  { key := dir, query := [("recursive", "true"), ("sorted", "true")] }

/-- A response refuses what was asked. -/
structure Declines (response : Http.Response) (refusal : Refusal) : Prop where
  whole : response.truncated = false
  failure : response.isSuccess = false
  body : Etcd.readBody Etcd.refusalSchema (String.ofList (Utf8.decodeLossy response.body)) = .ok refusal

variable {ω : Type} (http : Http.Transport ω) (c : Etcd.Config) {w w' : ω} {sent : Etcd.Sent}

/-- A list shows the records among the entries of the answer. -/
theorem listService_answer {a : Answer}
    (hsent : Etcd.send http c (listing svc.directory) (some c.requestTimeout) w = (.ok sent, w'))
    (ha : Etcd.readResponse sent.response svc.directory = .ok (some a)) :
    listService (Etcd.backend http c) svc w = (.ok (serviceRecords svc a.entries), w') := by
  unfold listService Etcd.backend Etcd.list Etcd.request
  unfold listing at hsent
  simp only [hsent, ha]
  rfl

/-- A directory that is not there is listed without records. -/
theorem listService_declined {refusal : Refusal}
    (hsent : Etcd.send http c (listing svc.directory) (some c.requestTimeout) w = (.ok sent, w'))
    (h : Declines sent.response refusal) (hcode : refusal.code = Etcd.keyNotFound) :
    listService (Etcd.backend http c) svc w = (.ok [], w') := by
  have hread : Etcd.readResponse sent.response svc.directory =
      .error (.notFound (refusal.cause.getD svc.directory)) := by
    unfold Etcd.readResponse
    simp only [h.whole, h.failure, h.body, Refusal.fault, hcode, if_true, Bool.false_eq_true, if_false]
  unfold listService Etcd.backend Etcd.list Etcd.request
  unfold listing at hsent
  simp only [hsent, hread]
  rfl

theorem listService_memory (svc : Service) (s : Store) :
    (listService memory svc s).1 = .ok (serviceRecords svc s.entries) :=
  listService_eq_entries svc s

/-- Whatever tree an endpoint answers with, in which no key stands twice among the tips, a list of the
service shows the same records as one over a store that holds the tips with key and value. If the root
is a tip itself and its key is the directory of the service, there are no records over either; and
neither are there any if the endpoint refuses the directory as one that is not there and the store has
nothing below it. -/
theorem listService_alike (svc : Service) (s : Store)
    (hsent : Etcd.send http c (listing svc.directory) (some c.requestTimeout) w = (.ok sent, w')) :
    (∀ a n, Etcd.readResponse sent.response svc.directory = .ok (some a) → a.node = some n →
      (n.tips.filterMap (·.key)).Nodup → HoldsTips s n →
      (n.dir = true → ∃ rs, (listService (Etcd.backend http c) svc w).1 = .ok rs ∧
        (listService memory svc s).1 = .ok rs) ∧
      (n.dir = false → n.key = some svc.directory →
        (listService (Etcd.backend http c) svc w).1 = .ok [] ∧
        (listService memory svc s).1 = .ok [])) ∧
    (∀ refusal, Declines sent.response refusal → refusal.code = Etcd.keyNotFound →
      (∀ e ∈ s.entries, Path.isUnder svc.directory e.key = true → e.key = svc.directory) →
      (listService (Etcd.backend http c) svc w).1 = .ok [] ∧
      (listService memory svc s).1 = .ok []) := by
  rw [listService_memory]
  constructor
  · intro a n ha hn hkeys hholds
    have hlist := congrArg Prod.fst (listService_answer http c hsent ha)
    rw [Answer.entries_eq hn] at hlist
    constructor
    · intro hdir
      rw [if_pos hdir, hholds.serviceRecords_eq hkeys] at hlist
      exact ⟨_, hlist, rfl⟩
    · intro hdir hkey
      rw [if_neg (ne_true_of_eq_false hdir)] at hlist
      exact ⟨hlist, congrArg _ (hholds.serviceRecords_eq_nil hdir hkey)⟩
  · intro refusal hdeclines hcode hbare
    have hlist := congrArg Prod.fst (listService_declined http c hsent hdeclines hcode)
    exact ⟨hlist, congrArg _ (serviceRecords_eq_nil_of_bare hbare)⟩

/-! ## A service in both keepers -/

/-- An endpoint that gives one response, whatever it is asked. -/
def always (r : Http.Response) : Http.Transport Unit := fun _ _ w => (.ok r, w)

def orders : Service := { name := "orders" }

theorem send_always {r : Http.Response} (h : r.isServerFault = false) (within : Option Nat) :
    Etcd.send (always r) {} (listing orders.directory) within () = (.ok ⟨r, false⟩, ()) := by
  have hask : ((listing orders.directory).request Etcd.defaultEndpoint).any (·.url.isSendable) =
      true := by
    decide +kernel
  obtain ⟨q, hq, hsendable⟩ := Option.any_eq_true _ _ |>.1 hask
  show Etcd.askInOrder (always r) _ within [Etcd.defaultEndpoint] _ false () = _
  unfold Etcd.askInOrder Etcd.askEndpoint
  simp only [hq, hsendable, if_true, always, h, Bool.false_eq_true, if_false]

/-- A tree with an empty directory, a value two directories below the root, a node below that one, and
a tip without a value. -/
def ordersTree (value : String) : Node where
  dir := true
  nodes := [
    { key := some (orders.key "empty"), dir := true },
    { dir := true
      nodes := [
        { key := some (orders.key "1"), value := some value, modifiedIndex := 7
          nodes := [{ key := some (orders.key "2"), value := some "below" }] },
        { key := some (orders.key "3") }] }]

theorem levels_ordersTree (value : String) : (ordersTree value).Levels 4 := by
  simp [ordersTree, Etcd.Node.levels_succ_iff]

/-- A store with one entry. -/
def single (key value : String) : Store := { capacity := 1, entries := [⟨key, value, 1⟩] }

theorem single_holds_ordersTree (value : String) :
    HoldsTips (single (orders.key "1") value) (ordersTree value) := by
  intro k v
  simp [single, ordersTree, Node.tips, Etcd.tipsOf]

theorem single_holds_tip (key value : String) :
    HoldsTips (single key value) { key := some key, value := some value } := by
  intro k v
  simp [single, Node.tips]

theorem declines_refusal (message cause : String) :
    Declines (Etcd.refusal 404 Etcd.keyNotFound message cause)
      { code := Etcd.keyNotFound, message, cause := some cause } where
  whole := rfl
  failure := rfl
  body := by
    rw [Etcd.refusal, Utf8.decodeLossy_encode]
    exact Etcd.readBody_write (Etcd.takes_refusal _ (by decide) message cause)

/-- The tree beside a store with its record, a tip at the directory itself beside a store that holds
it, and a refusal beside an empty store. -/
theorem orders_alike :
    let record := Record.encode { ip := "10.0.0.1", port := "80" }
    let tip : Node := { key := some orders.directory, value := some record }
    let gone := Etcd.refusal 404 Etcd.keyNotFound "Key not found" orders.directory
    let listed := fun r => (listService (Etcd.backend (always r) {}) orders ()).1
    let stored := fun s => (listService memory orders s).1
    (∃ rs, listed (Etcd.shown 200 "get" (ordersTree record).written) = .ok rs ∧
      stored (single (orders.key "1") record) = .ok rs) ∧
    (listed (Etcd.shown 200 "get" tip.written) = .ok [] ∧
      stored (single orders.directory record) = .ok []) ∧
    listed gone = .ok [] ∧ stored (.empty 1) = .ok [] := by
  intro record tip gone listed stored
  have htree := Etcd.readResponse_tree (by decide : 200 ≤ 200 ∧ 200 < 300) "get" orders.directory
    (levels_ordersTree record) (by decide)
  have htip := Etcd.readResponse_tree (by decide : 200 ≤ 200 ∧ 200 < 300) "get" orders.directory
    (Etcd.Node.levels_succ_iff.2 ⟨by decide, nofun⟩ : tip.Levels 1) (by decide)
  refine ⟨?_, ?_, ?_⟩
  · exact ((listService_alike (always _) {} orders _ (send_always rfl _)).1 _ _ htree rfl
      (by decide) (single_holds_ordersTree record)).1 rfl
  · exact ((listService_alike (always _) {} orders _ (send_always rfl _)).1 _ _ htip rfl
      (List.nodup_singleton _) (single_holds_tip _ record)).2 rfl rfl
  · exact (listService_alike (always _) {} orders _ (send_always rfl _)).2 _
      (declines_refusal _ orders.directory) rfl nofun

end Muster.Registry
