/-
Services side by side in one store. What a command of a service answers depends on the entries at the
keys of that service alone, and a command of another service leaves these as they are, as long as no
key is common to both. Names and clusters are joined by a dot and keys by slashes, whatever dots and
slashes they hold themselves: so two services do have common keys when what they are joined to is one
text, or the one begins with the other and a slash. Main statement: `isolated_iff`.
-/
import Muster.Proofs.Registry.Sheet
import Muster.Proofs.Store.Listing

namespace Muster.Registry

/-- The state of a backend after commands that are run one after another. -/
def after {σ : Type} (b : Backend σ) (cs : List Command) (s : σ) : σ :=
  cs.foldl (fun s c => (c.run b s).2) s

/-! ## Common keys -/

namespace Service

/-- What a service is called in its keys. -/
def label (svc : Service) : String := svc.name ++ "." ++ svc.cluster

/-- One service is called like the other, or like a directory below it. -/
def Meets (a b : Service) : Prop :=
  a.label = b.label ∨ (∃ rest, b.label = a.label ++ "/" ++ rest) ∨
    ∃ rest, a.label = b.label ++ "/" ++ rest

/-- Name and cluster leave the characters alone that they are joined with. -/
structure IsPlain (svc : Service) : Prop where
  name : '.' ∉ svc.name.toList
  cluster : '/' ∉ svc.cluster.toList

variable {a b svc : Service} {p q : String}

theorem key_label (svc : Service) (q : String) :
    svc.key q = "/" ++ root ++ "." ++ (svc.label ++ "/" ++ q) := by
  simp only [key_eq, directory, keyName, label, List.foldl_nil, String.append_assoc]

theorem toList_joined (x y : String) : (x ++ "/" ++ y).toList = x.toList ++ '/' :: y.toList := by
  rw [String.toList_append, String.toList_append, List.append_assoc]
  rfl

theorem key_eq_key_iff :
    a.key p = b.key q ↔ a.label.toList ++ '/' :: p.toList = b.label.toList ++ '/' :: q.toList := by
  rw [key_label, key_label, String.append_right_inj, ← String.toList_inj, toList_joined,
    toList_joined]

/-- Two services meet exactly when they have a key in common. -/
theorem meets_iff : a.Meets b ↔ ∃ p q, a.key p = b.key q := by
  constructor
  · rintro (h | ⟨rest, h⟩ | ⟨rest, h⟩)
    · exact ⟨"", "", by rw [key_label, key_label, h]⟩
    · exact ⟨rest ++ "/", "", by rw [key_label, key_label, h]; simp [String.append_assoc]⟩
    · exact ⟨"", rest ++ "/", by rw [key_label, key_label, h]; simp [String.append_assoc]⟩
  · rintro ⟨p, q, h⟩
    -- one label ends where the other does, or at a slash of it
    rcases List.append_eq_append_iff.1 (key_eq_key_iff.1 h) with ⟨more, hb, hp⟩ | ⟨more, ha, hq⟩
    · cases more with
      | nil => exact .inl (String.toList_inj.1 (by simpa using hb.symm))
      | cons c rest =>
        obtain ⟨rfl, -⟩ := List.cons.inj hp
        refine .inr (.inl ⟨String.ofList rest, String.toList_inj.1 ?_⟩)
        rw [toList_joined, String.toList_ofList, hb]
    · cases more with
      | nil => exact .inl (String.toList_inj.1 (by simpa using ha))
      | cons c rest =>
        obtain ⟨rfl, -⟩ := List.cons.inj hq
        refine .inr (.inr ⟨String.ofList rest, String.toList_inj.1 ?_⟩)
        rw [toList_joined, String.toList_ofList, ha]

/-- Texts that agree are parted alike at their first dot. -/
theorem parted_alike {x y s t : List Char} (hx : '.' ∉ x) (hy : '.' ∉ y)
    (h : x ++ '.' :: s = y ++ '.' :: t) : x = y ∧ s = t := by
  rcases List.append_eq_append_iff.1 h with ⟨more, rfl, hmore⟩ | ⟨more, rfl, hmore⟩ <;>
    rcases more with _ | ⟨c, more⟩ <;> simp_all

theorem toList_label (svc : Service) :
    svc.label.toList = svc.name.toList ++ '.' :: svc.cluster.toList := by
  rw [label, String.toList_append, String.toList_append, List.append_assoc]
  rfl

/-- What lies below the label of a plain service is no label of another one. -/
theorem IsPlain.not_below (ha : a.IsPlain) (hb : b.IsPlain) (rest : String) :
    b.label ≠ a.label ++ "/" ++ rest := by
  intro h
  have hlist := congrArg String.toList h
  rw [toList_joined, toList_label, toList_label, List.append_assoc, List.cons_append] at hlist
  obtain ⟨-, hcluster⟩ := parted_alike hb.name ha.name hlist
  exact hb.cluster (hcluster ▸ List.mem_append_right _ List.mem_cons_self)

/-- Different plain services never meet. -/
theorem IsPlain.not_meets (ha : a.IsPlain) (hb : b.IsPlain) (hab : a ≠ b) : ¬ a.Meets b := by
  rintro (h | ⟨rest, h⟩ | ⟨rest, h⟩)
  · have hlist := congrArg String.toList h
    rw [toList_label, toList_label] at hlist
    obtain ⟨hname, hcluster⟩ := parted_alike ha.name hb.name hlist
    obtain ⟨name, cluster⟩ := a
    obtain ⟨name', cluster'⟩ := b
    cases String.toList_inj.1 hname
    cases String.toList_inj.1 hcluster
    exact hab rfl
  · exact ha.not_below hb rest h
  · exact hb.not_below ha rest h

end Service

/-! ## The part of a service -/

open Muster.Path (isUnder)

/-- The entries of a store at the keys of a service. -/
def part (svc : Service) (s : Store) : List Entry :=
  s.entries.filter fun e => (afterText (svc.directory ++ "/") e.key).isSome

section Part

variable {a b svc : Service} {s t : Store} {c d : Command} {q : String}

theorem isSome_afterText {key : String} :
    (afterText (svc.directory ++ "/") key).isSome ↔ ∃ q, key = svc.key q := by
  rw [Option.isSome_iff_exists]
  exact exists_congr fun q => afterText_iff

theorem find?_part (svc : Service) (q : String) (s : Store) :
    Store.find? (svc.key q) s.entries = Store.find? (svc.key q) (part svc s) := by
  rw [Store.find?, Store.find?, part, List.find?_filter]
  refine congrArg (List.find? · s.entries) (funext fun e => ?_)
  by_cases he : e.key = svc.key q
  · simp [he, svc.afterText_key]
  · simp [he]

/-- Records are shown by entries with a name alone. -/
theorem recordsOf_filter (nameOf : String → Option String) (entries : List Entry) :
    recordsOf nameOf (entries.filter fun e => (nameOf e.key).isSome) = recordsOf nameOf entries := by
  induction entries using List.reverseRecOn with
  | nil => rfl
  | append_singleton entries e ih =>
    rw [List.filter_append, recordsOf_concat]
    rcases hname : nameOf e.key with _ | name
    · rw [List.filter_cons_of_neg (by simp [hname]), List.filter_nil, List.append_nil, ih]
    · rw [List.filter_cons_of_pos (by simp [hname]), List.filter_nil, recordsOf_concat, ih, hname]

/-- The records of a service are read from its part. -/
theorem serviceRecords_part (svc : Service) (s : Store) :
    serviceRecords svc
        (s.entries.filter fun e => e.key != svc.directory && isUnder svc.directory e.key) =
      serviceRecords svc (part svc s) := by
  unfold serviceRecords
  rw [← recordsOf_filter, List.filter_filter]
  congr 1
  refine List.filter_congr fun e _ => ?_
  rw [Bool.and_eq_left_iff_imp]
  intro h
  obtain ⟨q, hq⟩ := isSome_afterText.1 h
  rw [hq, svc.isUnder_key, Bool.and_true, bne_iff_ne]
  exact svc.key_ne_directory q

/-! ## Answers -/

theorem find?_of_part (h : part svc s = part svc t) (q : String) :
    Store.find? (svc.key q) s.entries = Store.find? (svc.key q) t.entries := by
  rw [find?_part svc q s, h, ← find?_part svc q t]

/-- Stores that hold the same at a key answer alike what is asked of it. -/
theorem writeRecord_of_find? (h : Store.find? (svc.key q) s.entries = Store.find? (svc.key q) t.entries)
    (r : Record) : (writeRecord memory svc q r s).1 = (writeRecord memory svc q r t).1 := by
  unfold writeRecord
  rcases r.validate with f | ⟨⟩
  · rfl
  rcases hs : Store.find? (svc.key q) s.entries with _ | e
  · obtain ⟨u, hu, -⟩ := Store.create_free hs r.encode
    obtain ⟨v, hv, -⟩ := Store.create_free (h ▸ hs) r.encode
    simp only [memory, hu, hv]
  · simp only [memory, Store.create_taken hs, Store.create_taken (h ▸ hs)]

theorem clearRecord_of_find?
    (h : Store.find? (svc.key q) s.entries = Store.find? (svc.key q) t.entries) :
    (clearRecord memory svc q s).1 = (clearRecord memory svc q t).1 := by
  unfold clearRecord
  rcases hs : Store.find? (svc.key q) s.entries with _ | e
  · simp only [memory, Store.delete_missing hs, Store.delete_missing (h ▸ hs)]
  · obtain ⟨u, hu, -⟩ := Store.delete_held hs
    obtain ⟨v, hv, -⟩ := Store.delete_held (h ▸ hs)
    simp only [memory, hu, hv]

theorem readRecord_of_find?
    (h : Store.find? (svc.key q) s.entries = Store.find? (svc.key q) t.entries) :
    (readRecord memory svc q s).1 = (readRecord memory svc q t).1 := by
  show (s.get (svc.key q)).bind _ = (t.get (svc.key q)).bind _
  unfold Store.get
  rw [h]

theorem listService_eq (svc : Service) (s : Store) :
    (listService memory svc s).1 = .ok (serviceRecords svc (part svc s)) := by
  rw [← serviceRecords_part]
  show (presentOr (s.list svc.directory)).map (serviceRecords svc) = _
  unfold Store.list
  split
  · rename_i hnone
    rw [hnone]
    rfl
  · rfl

theorem run_read (svc : Service) (q : String) (s : Store) : (Command.read svc q).run memory s =
    ((readRecord memory svc q s).1.map .record, (readRecord memory svc q s).2) := rfl

theorem run_clear (svc : Service) (q : String) (s : Store) : (Command.clear svc q).run memory s =
    ((clearRecord memory svc q s).1.map fun _ => .done, (clearRecord memory svc q s).2) := rfl

theorem run_deregister (svc : Service) (q : String) (s : Store) :
    (Command.deregister svc q).run memory s = (Command.clear svc q).run memory s := rfl

theorem run_records (svc : Service) (s : Store) : (Command.records svc).run memory s =
    ((listService memory svc s).1.map .records, (listService memory svc s).2) := rfl

/-- What a command of a service answers depends on the part of that service alone. -/
theorem run_of_part (hd : d.concerns svc) (h : part svc s = part svc t) :
    (d.run memory s).1 = (d.run memory t).1 := by
  cases d with
  | write _ q r =>
    cases hd
    rw [Mirrors.run_write, Mirrors.run_write, writeRecord_of_find? (find?_of_part h q)]
  | read _ q =>
    cases hd
    rw [run_read, run_read, readRecord_of_find? (find?_of_part h q)]
  | clear _ q =>
    cases hd
    rw [run_clear, run_clear, clearRecord_of_find? (find?_of_part h q)]
  | records _ =>
    cases hd
    rw [run_records, run_records, listService_eq, listService_eq, h]
  | register _ ip port drawn kind version now =>
    cases hd
    obtain ⟨reg, hreg⟩ : ∃ reg, reg = Registration.ofInstance ip port drawn kind version now :=
      ⟨_, rfl⟩
    rw [Mirrors.run_register hreg, Mirrors.run_register hreg,
      writeRecord_of_find? (find?_of_part h reg.sequence)]
  | deregister _ q =>
    cases hd
    rw [run_deregister, run_deregister, run_clear, run_clear,
      clearRecord_of_find? (find?_of_part h q)]
  | allRecords | endpoints | resolve | put | remove | get | list => cases hd

/-! ## Changes -/

theorem writeRecord_cases (svc : Service) (q : String) (r : Record) (s : Store) :
    (writeRecord memory svc q r s).2 = s ∨
      ∃ value, s.create (svc.key q) value = .ok (writeRecord memory svc q r s).2 := by
  unfold writeRecord
  rcases r.validate with f | ⟨⟩
  · exact .inl rfl
  · rcases hs : s.create (svc.key q) r.encode with f | u
    · exact .inl (by simp only [memory, hs])
    · exact .inr ⟨r.encode, by simp only [memory, hs]⟩

theorem clearRecord_cases (svc : Service) (q : String) (s : Store) :
    (clearRecord memory svc q s).2 = s ∨
      s.delete (svc.key q) = .ok (clearRecord memory svc q s).2 := by
  unfold clearRecord
  rcases hs : s.delete (svc.key q) with f | u
  · exact .inl (by simp only [memory, hs])
  · exact .inr (by simp only [memory, hs])

/-- What a command of a service can do to a store. -/
theorem run_cases (hc : c.concerns svc) (s : Store) :
    (c.run memory s).2 = s ∨
    (∃ q value, s.create (svc.key q) value = .ok (c.run memory s).2) ∨
    ∃ q, s.delete (svc.key q) = .ok (c.run memory s).2 := by
  cases c with
  | write _ q r =>
    cases hc
    rw [Mirrors.run_write]
    exact (writeRecord_cases svc q r s).imp_right fun h => .inl ⟨q, h⟩
  | clear _ q =>
    cases hc
    rw [run_clear]
    exact (clearRecord_cases svc q s).imp_right fun h => .inr ⟨q, h⟩
  | register _ ip port drawn kind version now =>
    cases hc
    obtain ⟨reg, hreg⟩ : ∃ reg, reg = Registration.ofInstance ip port drawn kind version now :=
      ⟨_, rfl⟩
    rw [Mirrors.run_register hreg]
    exact (writeRecord_cases svc reg.sequence reg.record s).imp_right fun h => .inl ⟨reg.sequence, h⟩
  | deregister _ q =>
    cases hc
    rw [run_deregister, run_clear]
    exact (clearRecord_cases svc q s).imp_right fun h => .inr ⟨q, h⟩
  | read | records => exact .inl rfl
  | allRecords | endpoints | resolve | put | remove | get | list => cases hc

/-- A command leaves the part of a service alone that its own service does not meet. -/
theorem part_run (h : ¬ a.Meets b) (hc : c.concerns a) (s : Store) :
    part b (c.run memory s).2 = part b s := by
  have apart (q : String) (e : Entry) (he : e.key = a.key q) :
      (afterText (b.directory ++ "/") e.key).isSome = false := by
    refine Bool.eq_false_iff.2 fun hsome => h (Service.meets_iff.2 ?_)
    obtain ⟨p, hp⟩ := isSome_afterText.1 hsome
    exact ⟨q, p, he ▸ hp⟩
  rcases run_cases hc s with hs | ⟨q, value, hs⟩ | ⟨q, hs⟩
  · rw [hs]
  · exact Store.filter_of_create hs (apart q)
  · exact Store.filter_of_delete hs (apart q)

theorem part_after (h : ¬ a.Meets b) : ∀ {cs : List Command}, (∀ c ∈ cs, c.concerns a) →
    ∀ s, part b (after memory cs s) = part b s
  | [], _, _ => rfl
  | c :: _, hcs, s =>
    (part_after h (fun d hd => hcs d (List.mem_cons_of_mem c hd)) _).trans
      (part_run h (hcs c List.mem_cons_self) s)

end Part

/-! ## Isolation -/

section Isolation

variable {a b : Service} {s : Store}

/-- What is written through one service at a free key is read through the other at the same key. -/
theorem read_written {p q : String} (hkey : a.key p = b.key q) {r : Record}
    (hr : r.validate = .ok ()) (hfree : Store.find? (a.key p) s.entries = none) :
    (readRecord memory b q (writeRecord memory a p r s).2).1 = .ok r := by
  obtain ⟨t, ht, hmem⟩ := Store.create_free hfree r.encode
  have hafter : (writeRecord memory a p r s).2 = t := by
    unfold writeRecord
    simp only [hr, memory, ht]
  rw [hafter]
  show (t.get (b.key q)).bind (fun e => Record.decode e.value) = _
  rcases hf : Store.find? (b.key q) t.entries with _ | e
  · exact absurd hkey (Store.find?_none hf _ ((hmem _).2 (.inl rfl)))
  · obtain ⟨he, hek⟩ := Store.find?_some hf
    have hvalue : e.value = r.encode := by
      rcases (hmem e).1 he with rfl | he
      · rfl
      · exact absurd (hek.trans hkey.symm) (Store.find?_none hfree e he)
    rw [Store.get_held hf]
    show Record.decode e.value = _
    rw [hvalue, Record.decode_encode hr]

/-- A command of one service is answered in the same way before and after any commands of another,
whatever the store holds, exactly when the services do not meet; and different services do not meet
if their names hold no dot and their clusters no slash. -/
theorem isolated_iff (a b : Service) :
    ((∀ (s : Store) (cs : List Command) (d : Command), (∀ c ∈ cs, c.concerns a) → d.concerns b →
      (d.run memory (after memory cs s)).1 = (d.run memory s).1) ↔ ¬ a.Meets b) ∧
    (a.IsPlain → b.IsPlain → a ≠ b → ¬ a.Meets b) := by
  refine ⟨⟨?_, ?_⟩, Service.IsPlain.not_meets⟩
  swap
  · intro h s cs d hcs hd
    exact run_of_part hd (part_after h hcs s)
  intro h hmeets
  obtain ⟨p, q, hkey⟩ := Service.meets_iff.1 hmeets
  obtain ⟨r, hr⟩ : ∃ r : Record, r.validate = .ok () := ⟨⟨"", "0", "0", .rpc, ""⟩, by decide⟩
  -- a record written through the one would be read through the other, where nothing was before
  have hsame := h (.empty 1) [.write a p r] (.read b q) (by simp [Command.concerns]) rfl
  have hbefore : (readRecord memory b q (.empty 1)).1 = .error (.notFound (b.key q)) := rfl
  rw [run_read, run_read, after, List.foldl_cons, List.foldl_nil, Mirrors.run_write,
    read_written hkey hr rfl, hbefore] at hsame
  cases hsame

/-- A dot in a name and a dot in a cluster: two services with all their keys in common. Plain ones
keep to themselves. -/
theorem dotted_services_meet :
    let a : Service := ⟨"a.b", "c"⟩
    let b : Service := ⟨"a", "b.c"⟩
    let orders : Service := ⟨"orders", "blue"⟩
    let payments : Service := ⟨"payments", "blue"⟩
    a ≠ b ∧
    (∃ (s : Store) (cs : List Command) (d : Command), (∀ c ∈ cs, c.concerns a) ∧ d.concerns b ∧
      (d.run memory (after memory cs s)).1 ≠ (d.run memory s).1) ∧
    ∀ (s : Store) (cs : List Command) (d : Command), (∀ c ∈ cs, c.concerns orders) →
      d.concerns payments → (d.run memory (after memory cs s)).1 = (d.run memory s).1 := by
  intro a b orders payments
  refine ⟨by decide, ?_, ?_⟩
  · have h := mt (isolated_iff a b).1.1 (not_not.2 (.inl (by decide)))
    push Not at h
    exact h
  · have plain := (isolated_iff orders payments).2 ⟨by decide, by decide⟩ ⟨by decide, by decide⟩
    exact (isolated_iff orders payments).1.2 (plain (by decide))

end Isolation

end Muster.Registry
