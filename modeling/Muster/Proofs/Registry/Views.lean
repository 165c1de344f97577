/-
One content, several views of it. The list of everything shows under each key what the last readable
entry at that key holds; the list of a service is the part of it below the directory of the service, the
endpoints are the addresses of that part, and a resolution finds the same addresses. This holds of any
content, also of keys that nothing of the registry has written. Main statement: `views_agree`.
-/
import Muster.Proofs.Lookup
import Muster.Proofs.Registry.Isolation
import Muster.Proofs.Resolver.AddressSet

namespace Muster.Registry

variable {nameOf : String → Option String} {start n : String}

/-! ## What stands under a name -/

/-- What an entry shows under a name. -/
def shown (nameOf : String → Option String) (n : String) (e : Entry) : Option Record :=
  if nameOf e.key = some n then (Record.decode e.value).toOption else none

/-- Under a name stands what the last readable entry of that name holds. -/
theorem lookup_recordsOf (entries : List Entry) :
    (recordsOf nameOf entries).lookup n = (entries.filterMap (shown nameOf n)).getLast? := by
  induction entries using List.reverseRecOn with
  | nil => rfl
  | append_singleton entries e ih =>
    rw [recordsOf_concat, List.filterMap_append, List.getLast?_append]
    cases hname : nameOf e.key with
    | none => simp [shown, hname, ih]
    | some name =>
      cases hr : Record.decode e.value with
      | error f => simp [shown, hname, hr, Except.toOption, ih]
      | ok r =>
        simp only [lookup_insertRecord, ih]
        by_cases hn : n = name
        · simp [shown, hname, hr, hn, Except.toOption]
        · simp [shown, hname, hn, Ne.symm hn]

/-- Entries without a name may be left out. -/
theorem recordsOf_named {p : Entry → Bool} (entries : List Entry)
    (h : ∀ e, (nameOf e.key).isSome → p e = true) :
    recordsOf nameOf (entries.filter p) = recordsOf nameOf entries := by
  rw [← recordsOf_filter, List.filter_filter, ← recordsOf_filter nameOf entries]
  congr 1
  apply List.filter_congr
  intro e _
  rw [Bool.and_eq_left_iff_imp]
  exact h e

/-! ## Below a directory -/

/-- The records whose names begin with a text, by what follows it. -/
def below (start : String) (rs : List (String × Record)) : List (String × Record) :=
  rs.filterMap fun p => (afterText start p.1).map (·, p.2)

theorem lookup_below (rs : List (String × Record)) :
    (below start rs).lookup n = rs.lookup (start ++ n) := by
  induction rs with
  | nil => rfl
  | cons p rs ih =>
    obtain ⟨key, r⟩ := p
    unfold below at ih ⊢
    rw [lookup_cons_if]
    cases hname : afterText start key with
    | none =>
      have hkey : start ++ n ≠ key := by
        rintro rfl
        rw [afterText_iff.2 rfl] at hname
        cases hname
      rw [List.filterMap_cons_none (by simp [hname]), ih, if_neg hkey]
    | some name =>
      rw [List.filterMap_cons_some (b := (name, r)) (by simp [hname]), lookup_cons_if, ih,
        afterText_iff.1 hname]
      simp only [String.append_right_inj]

/-- What two names begin with does not count for their order. -/
theorem append_lt_append {x y : String} : start ++ x < start ++ y ↔ x < y := by
  simp only [String.lt_iff_toList_lt, String.toList_append]
  induction start.toList with
  | nil => rfl
  | cons c cs ih => rw [List.cons_append, List.cons_append, List.cons_lt_cons_self, ih]

theorem below_ordered {rs : List (String × Record)} (h : rs.Pairwise (·.1 < ·.1)) :
    (below start rs).Pairwise (·.1 < ·.1) := by
  apply h.filterMap
  intro p q hpq p' hp' q' hq'
  obtain ⟨name, hname, rfl⟩ := Option.map_eq_some_iff.1 hp'
  obtain ⟨name', hname', rfl⟩ := Option.map_eq_some_iff.1 hq'
  rw [afterText_iff.1 hname, afterText_iff.1 hname', append_lt_append] at hpq
  exact hpq

/-! ## Views of one content -/

variable (svc : Service) (s : Store)

/-- The name of a record in the list of everything is its key. -/
def fullName (key : String) : Option String := (afterText ("/" ++ root ++ ".") key).map fun _ => key

theorem fullName_eq_some_iff {key : String} :
    fullName key = some n ↔ key = n ∧ ∃ rest, n = "/" ++ root ++ "." ++ rest := by
  unfold fullName
  simp only [Option.map_eq_some_iff, afterText_iff]
  constructor
  · rintro ⟨rest, hrest, rfl⟩
    exact ⟨rfl, rest, hrest⟩
  · rintro ⟨rfl, rest, hrest⟩
    exact ⟨rest, hrest, rfl⟩

/-- The directory of everything holds every key but its own, and that one is no key of a record. -/
theorem listAll_eq : (listAll memory s).1 = .ok (recordsOf fullName s.entries) := by
  have hall : recordsOf fullName
      (s.entries.filter fun e => e.key != "/" && Path.isUnder "/" e.key) =
      recordsOf fullName s.entries := by
    apply recordsOf_named
    intro e he
    obtain ⟨name, hname⟩ := Option.isSome_iff_exists.1 he
    obtain ⟨rfl, rest, hrest⟩ := fullName_eq_some_iff.1 hname
    have hkey : e.key ≠ "/" := by
      intro hslash
      have hlen := congrArg String.length (hrest.symm.trans hslash)
      rw [String.length_append] at hlen
      have hroot : ("/" ++ root ++ ".").length = 16 := rfl
      have hone : "/".length = 1 := rfl
      omega
    rw [bne_iff_ne.2 hkey]
    rfl
  show (presentOr (s.list "/")).map allRecords = _
  rw [← hall]
  unfold Store.list
  split
  · rename_i hnone
    rw [hnone]
    rfl
  · rfl

theorem listService_eq_entries :
    (listService memory svc s).1 = .ok (recordsOf (afterText (svc.directory ++ "/")) s.entries) := by
  rw [listService_eq, serviceRecords, part, recordsOf_filter]

/-- The records of a service are those below its directory. -/
theorem below_all (entries : List Entry) :
    recordsOf (afterText (svc.directory ++ "/")) entries =
      below (svc.directory ++ "/") (recordsOf fullName entries) := by
  apply ordered_ext (recordsOf_ordered _) (below_ordered (recordsOf_ordered _))
  intro name
  have hsame : shown (afterText (svc.directory ++ "/")) name =
      shown fullName (svc.directory ++ "/" ++ name) := by
    funext e
    have hname : afterText (svc.directory ++ "/") e.key = some name ↔
        fullName e.key = some (svc.directory ++ "/" ++ name) := by
      rw [afterText_iff, fullName_eq_some_iff]
      constructor
      · intro hkey
        exact ⟨hkey, _, svc.key_label name⟩
      · intro hkey
        exact hkey.1
    simp only [shown, hname]
  rw [lookup_below, lookup_recordsOf, lookup_recordsOf, hsame]

/-- A listing that succeeds settles a resolution, however many attempts it has. -/
theorem resolve_eq {rs : List (String × Record)} (h : (listService memory svc s).1 = .ok rs) (n : Nat) :
    (Resolver.resolve memory svc n s).1 = .ok (.ofRecords (rs.map (·.2))) := by
  have hlookup : (Resolver.lookup memory svc s).1 = .ok (.ofRecords (rs.map (·.2))) := by
    unfold Resolver.lookup
    simp only [h]
    rfl
  unfold Resolver.resolve
  cases n - 1 with
  | zero => exact hlookup
  | succ more =>
    unfold Resolver.attempts
    split
    · rename_i found t hfound
      rw [hfound] at hlookup
      exact hlookup
    · rename_i f t hfound
      rw [hfound] at hlookup
      cases hlookup

/-- All views agree, whatever the store holds. The list of everything shows, in the order of the keys,
what the last readable entry at each key of the registry holds. The list of a service is the part of it
whose keys begin with the directory of the service and a slash, by what follows; the endpoints are the
addresses of that part in its order; and a resolution finds these addresses, in increasing order and
each once. -/
theorem views_agree (svc : Service) (attempts : Nat) (s : Store) :
    ∃ (all rs : List (String × Record)) (set : AddressSet),
      (listAll memory s).1 = .ok all ∧ (listService memory svc s).1 = .ok rs ∧
      (endpoints memory svc s).1 = .ok (rs.map (·.2.address)) ∧
      (Resolver.resolve memory svc attempts s).1 = .ok set ∧
      (∀ key, all.lookup key = (s.entries.filterMap (shown fullName key)).getLast?) ∧
      all.Pairwise (·.1 < ·.1) ∧
      rs = all.filterMap (fun p => (afterText (svc.directory ++ "/") p.1).map (·, p.2)) ∧
      rs.Pairwise (·.1 < ·.1) ∧
      set.addrs.Pairwise (· < ·) ∧ ∀ addr, addr ∈ set.addrs ↔ addr ∈ rs.map (·.2.address) := by
  have hservice := listService_eq_entries svc s
  refine ⟨_, _, _, listAll_eq s, hservice, ?_, resolve_eq svc s hservice attempts, ?_, ?_, ?_, ?_, ?_,
    ?_⟩
  · unfold endpoints
    simp only [hservice]
    rfl
  · exact fun key => lookup_recordsOf s.entries
  · exact recordsOf_ordered s.entries
  · exact below_all svc s.entries
  · exact recordsOf_ordered s.entries
  · exact AddressSet.ofList_ordered _
  · intro addr
    rw [AddressSet.mem_ofRecords, List.map_map]
    rfl

end Muster.Registry
