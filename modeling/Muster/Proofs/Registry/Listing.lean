/-
What a list of records shows. The key of a record is the directory of its service, a slash and its
sequence, whatever characters these hold; so a sequence is read back from its key, and the keys of a
service all lie under its directory. Records stand in the order of their names, one for each name
that an entry can be read under.
-/
import Mathlib.Data.List.Induction
import Mathlib.Data.String.Basic
import Muster.Proofs.Store.Path
import Muster.Registry.Service

namespace Muster.Registry

/-! ## Keys -/

theorem afterText_iff {start s name : String} : afterText start s = some name ↔ s = start ++ name := by
  rw [afterText, Option.map_eq_some_iff]
  constructor
  · rintro ⟨rest, hrest, rfl⟩
    rw [Path.afterStart_iff] at hrest
    rw [← String.toList_inj, String.toList_append, String.toList_ofList, hrest]
  · rintro rfl
    exact ⟨name.toList, Path.afterStart_iff.2 String.toList_append, String.ofList_toList⟩

namespace Service

variable (svc : Service)

theorem key_eq (q : String) : svc.key q = svc.directory ++ "/" ++ q := rfl

theorem afterText_key (q : String) : afterText (svc.directory ++ "/") (svc.key q) = some q :=
  afterText_iff.2 (svc.key_eq q)

/-- Two sequences never share a key. -/
theorem key_inj {p q : String} : svc.key p = svc.key q ↔ p = q := by
  refine ⟨fun h => ?_, congrArg _⟩
  have hp := svc.afterText_key p
  rw [h, svc.afterText_key q] at hp
  exact (Option.some.inj hp).symm

theorem isUnder_key (q : String) : Path.isUnder svc.directory (svc.key q) = true := by
  have hkey : (svc.key q).toList = svc.directory.toList ++ '/' :: q.toList := by
    rw [key_eq, String.toList_append, String.toList_append, List.append_assoc]
    rfl
  rw [Path.isUnder, hkey]
  exact Path.under_child _ _

/-- The directory itself is no key of a record. -/
theorem key_ne_directory (q : String) : svc.key q ≠ svc.directory := by
  intro h
  have hlen := congrArg String.length h
  rw [key_eq, String.length_append, String.length_append] at hlen
  have hslash : "/".length = 1 := rfl
  omega

end Service

/-! ## Records in the order of their names -/

section Lists

variable {name n : String} {r : Record}

theorem lookup_insertRecord : ∀ rs : List (String × Record),
    (insertRecord name r rs).lookup n = if n = name then some r else rs.lookup n
  | [] => by
    rw [insertRecord, List.lookup_cons, List.lookup_nil]
    split <;> simp_all
  | (m, q) :: rest => by
    rw [insertRecord]
    split
    · rw [List.lookup_cons]
      split <;> simp_all
    · split
      · rename_i hnm
        rw [List.lookup_cons, List.lookup_cons, hnm]
        split <;> simp_all
      · rename_i hnm
        rw [List.lookup_cons, List.lookup_cons, lookup_insertRecord rest]
        split
        · rename_i hn
          rw [beq_iff_eq] at hn
          rw [if_neg (by rw [hn]; exact Ne.symm hnm)]
        · rfl

theorem mem_insertRecord {p : String × Record} : ∀ {rs : List (String × Record)},
    p ∈ insertRecord name r rs → p = (name, r) ∨ p ∈ rs
  | [], h => .inl (List.mem_singleton.1 h)
  | (m, q) :: rest, h => by
    rw [insertRecord] at h
    split at h
    · exact List.mem_cons.1 h
    · split at h
      · exact (List.mem_cons.1 h).imp_right (List.mem_cons_of_mem _)
      · rcases List.mem_cons.1 h with rfl | h
        · exact .inr List.mem_cons_self
        · exact (mem_insertRecord h).imp_right (List.mem_cons_of_mem _)

theorem insertRecord_ordered : ∀ {rs : List (String × Record)}, rs.Pairwise (·.1 < ·.1) →
    (insertRecord name r rs).Pairwise (·.1 < ·.1)
  | [], _ => List.pairwise_singleton _ _
  | (m, q) :: rest, h => by
    obtain ⟨hm, hrest⟩ := List.pairwise_cons.1 h
    rw [insertRecord]
    split
    · rename_i hlt
      refine List.pairwise_cons.2 ⟨fun p hp => ?_, h⟩
      rcases List.mem_cons.1 hp with rfl | hp
      · exact hlt
      · exact lt_trans hlt (hm p hp)
    · rename_i hlt
      split
      · rename_i heq
        subst heq
        exact List.pairwise_cons.2 ⟨hm, hrest⟩
      · rename_i hne
        refine List.pairwise_cons.2 ⟨fun p hp => ?_, insertRecord_ordered hrest⟩
        rcases mem_insertRecord hp with rfl | hp
        · exact lt_of_le_of_ne (not_lt.1 hlt) (Ne.symm hne)
        · exact hm p hp

/-- A name before all names of a list is not in it. -/
theorem lookup_before {rs : List (String × Record)} (h : ∀ p ∈ rs, n < p.1) : rs.lookup n = none := by
  rw [List.lookup_eq_none_iff]
  intro p hp
  simpa using (h p hp).ne

theorem lookup_before_cons {m : String} {rs : List (String × Record)}
    (h : ((m, r) :: rs).Pairwise (·.1 < ·.1)) (hn : n < m) : ((m, r) :: rs).lookup n = none := by
  refine lookup_before fun p hp => ?_
  rcases List.mem_cons.1 hp with rfl | hp
  · exact hn
  · exact lt_trans hn ((List.pairwise_cons.1 h).1 p hp)

/-- Lists in the order of their names that look up alike are the same list. -/
theorem ordered_ext : ∀ {rs ts : List (String × Record)}, rs.Pairwise (·.1 < ·.1) →
    ts.Pairwise (·.1 < ·.1) → (∀ n, rs.lookup n = ts.lookup n) → rs = ts
  | [], [], _, _, _ => rfl
  | [], (n, r) :: ts, _, _, h => by simpa [List.lookup_cons] using h n
  | (n, r) :: rs, [], _, _, h => by simpa [List.lookup_cons] using h n
  | (m, q) :: rs, (n, r) :: ts, hrs, hts, h => by
    have hleft : ((m, q) :: rs).lookup m = some q := by rw [List.lookup_cons, beq_self_eq_true]
    have hright : ((n, r) :: ts).lookup n = some r := by rw [List.lookup_cons, beq_self_eq_true]
    -- the list whose first name is smaller would show a name that the other one has not
    have hmn : m = n := by
      rcases lt_trichotomy m n with hlt | heq | hlt
      · rw [h m, lookup_before_cons hts hlt] at hleft
        cases hleft
      · exact heq
      · rw [← h n, lookup_before_cons hrs hlt] at hright
        cases hright
    subst hmn
    rw [h m, hright, Option.some.injEq] at hleft
    subst hleft
    obtain ⟨hm, hrs⟩ := List.pairwise_cons.1 hrs
    obtain ⟨hm', hts⟩ := List.pairwise_cons.1 hts
    rw [ordered_ext hrs hts fun n => ?_]
    by_cases hn : n = m
    · rw [hn, lookup_before hm, lookup_before hm']
    · have hpair := h n
      rwa [List.lookup_cons, List.lookup_cons, beq_false_of_ne hn] at hpair

end Lists

/-! ## Records of entries -/

section Entries

variable {nameOf : String → Option String} {n : String} {r : Record}

/-- The list with one more entry read. -/
theorem recordsOf_concat (entries : List Entry) (e : Entry) :
    recordsOf nameOf (entries ++ [e]) =
      match nameOf e.key, Record.decode e.value with
      | some name, .ok r => insertRecord name r (recordsOf nameOf entries)
      | _, _ => recordsOf nameOf entries := by
  rw [recordsOf, List.foldl_append]
  rfl

theorem recordsOf_ordered (entries : List Entry) :
    (recordsOf nameOf entries).Pairwise (·.1 < ·.1) := by
  induction entries using List.reverseRecOn with
  | nil => exact .nil
  | append_singleton entries e ih =>
    rw [recordsOf_concat]
    split
    · exact insertRecord_ordered ih
    · exact ih

/-- What is shown under a name has been read from an entry of that name. -/
theorem entry_of_recordsOf {entries : List Entry} (h : (recordsOf nameOf entries).lookup n = some r) :
    ∃ e ∈ entries, nameOf e.key = some n ∧ Record.decode e.value = .ok r := by
  induction entries using List.reverseRecOn with
  | nil => cases h
  | append_singleton entries e ih =>
    have older (h : (recordsOf nameOf entries).lookup n = some r) :
        ∃ f ∈ entries ++ [e], nameOf f.key = some n ∧ Record.decode f.value = .ok r := by
      obtain ⟨f, hf, hfacts⟩ := ih h
      exact ⟨f, List.mem_append_left _ hf, hfacts⟩
    rw [recordsOf_concat] at h
    split at h
    · rename_i name q hname hq
      rw [lookup_insertRecord] at h
      split at h
      · rename_i hn
        cases h
        exact ⟨e, List.mem_append_right _ (List.mem_singleton_self e), hn ▸ hname, hq⟩
      · exact older h
    · exact older h

/-- Each name that an entry can be read under is shown. -/
theorem recordsOf_of_entry {entries : List Entry} {e : Entry} (he : e ∈ entries)
    (hname : nameOf e.key = some n) (hr : Record.decode e.value = .ok r) :
    ∃ q, (recordsOf nameOf entries).lookup n = some q := by
  induction entries using List.reverseRecOn with
  | nil => cases he
  | append_singleton entries f ih =>
    rw [recordsOf_concat]
    rcases List.mem_append.1 he with he | he
    · obtain ⟨q, hq⟩ := ih he
      split
      · rw [lookup_insertRecord]
        split
        · exact ⟨_, rfl⟩
        · exact ⟨q, hq⟩
      · exact ⟨q, hq⟩
    · rw [List.mem_singleton] at he
      subst he
      rw [hname, hr]
      exact ⟨r, by rw [lookup_insertRecord, if_pos rfl]⟩

end Entries

end Muster.Registry
