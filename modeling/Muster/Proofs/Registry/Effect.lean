/-
What commands do to what a store holds. A command changes one key at most: it puts a value there if the key
is free, or removes what is there. So commands that are out for another key neither see what stands at this
one nor touch it, and what stands at this one makes no difference to them.
-/
import Mathlib.Logic.Function.Basic
import Muster.Proofs.Registry.Sequence

namespace Muster

/-- What a store holds: the value at each key. -/
def Store.contents (s : Store) (key : String) : Option String :=
  (Store.find? key s.entries).map (·.value)

namespace Registry

/-- The key that a command is out to change, with the value that is to stand there if the key is free, or
without one if nothing is to stand there. -/
def Command.aim : Command → Option (String × Option String)
  | .write svc q r => if r.validate = .ok () then some (svc.key q, some r.encode) else none
  | .register svc ip port drawn kind version now =>
    let reg := Registration.ofInstance ip port drawn kind version now
    some (svc.key reg.sequence, some reg.record.encode)
  | .clear svc q | .deregister svc q => some (svc.key q, none)
  | .put key value => some (key, some value)
  | .remove key => some (key, none)
  | .read .. | .records _ | .allRecords | .endpoints _ | .resolve .. | .get _ | .list _ => none

/-- A command is out to change a key. -/
def Command.Aims (c : Command) (key : String) : Prop := ∃ value, c.aim = some (key, value)

/-- What is held after something has been aimed at. -/
def aimed (held : String → Option String) : Option (String × Option String) → String → Option String
  | none => held
  | some (key, some value) => Function.update held key ((held key).or (some value))
  | some (key, none) => Function.update held key none

variable {s t : Store} {key value : String} {held : String → Option String} {c : Command}

theorem contents_eq_none (h : Store.find? key s.entries = none) : s.contents key = none := by
  rw [Store.contents, h, Option.map_none]

theorem contents_eq_some {e : Entry} (h : Store.find? key s.entries = some e) :
    s.contents key = some e.value := by
  rw [Store.contents, h, Option.map_some]

/-! ## Mutations -/

theorem contents_of_filter {k : String}
    (h : t.entries.filter (·.key == k) = s.entries.filter (·.key == k)) :
    t.contents k = s.contents k :=
  congrArg (Option.map Entry.value) (find?_of_filter h)

theorem contents_create (s : Store) (key value : String) : (memory.create key value s).2.contents =
    Function.update s.contents key ((s.contents key).or (some value)) := by
  cases hf : Store.find? key s.entries with
  | some e =>
    rw [contents_eq_some hf, Option.some_or, ← contents_eq_some hf, Function.update_eq_self]
    simp only [memory, Store.create_taken hf]
  | none =>
    obtain ⟨t, ht, hmem⟩ := Store.create_free hf value
    rw [contents_eq_none hf, Option.none_or]
    simp only [memory, ht]
    funext k
    by_cases hk : k = key
    · rw [hk, Function.update_self, Store.contents]
      cases hfound : Store.find? key t.entries with
      | none => exact absurd rfl (Store.find?_none hfound _ ((hmem _).2 (.inl rfl)))
      | some e =>
        obtain ⟨he, hkey⟩ := Store.find?_some hfound
        rcases (hmem e).1 he with rfl | he
        · rfl
        · exact absurd hkey (Store.find?_none hf e he)
    · rw [Function.update_of_ne hk]
      apply contents_of_filter
      apply Store.filter_of_create ht
      intro e he
      simpa [he] using Ne.symm hk

theorem contents_delete (s : Store) (key : String) :
    (memory.delete key s).2.contents = Function.update s.contents key none := by
  cases hf : Store.find? key s.entries with
  | none =>
    rw [← contents_eq_none hf, Function.update_eq_self]
    simp only [memory, Store.delete_missing hf]
  | some e =>
    obtain ⟨t, ht, hmem⟩ := Store.delete_held hf
    simp only [memory, ht]
    funext k
    by_cases hk : k = key
    · have hgone : Store.find? key t.entries = none := by
        rw [Store.find?, List.find?_eq_none]
        intro f hf
        simpa using ((hmem f).1 hf).2
      rw [hk, Function.update_self, contents_eq_none hgone]
    · rw [Function.update_of_ne hk]
      apply contents_of_filter
      apply Store.filter_of_delete ht
      intro e he
      simpa [he] using Ne.symm hk

theorem contents_writeRecord (svc : Service) (q : String) {r : Record} (hr : r.validate = .ok ())
    (s : Store) : (writeRecord memory svc q r s).2.contents =
      aimed s.contents (some (svc.key q, some r.encode)) := by
  rw [writeRecord, hr]
  exact contents_create s (svc.key q) r.encode

theorem contents_clearRecord (svc : Service) (q : String) (s : Store) :
    (clearRecord memory svc q s).2.contents = aimed s.contents (some (svc.key q, none)) := by
  have hdelete : (clearRecord memory svc q s).2 = (memory.delete (svc.key q) s).2 := by
    unfold clearRecord
    split <;> simp_all
  rw [hdelete]
  exact contents_delete s (svc.key q)

/-! ## Commands -/

theorem resolve_snd (svc : Service) (n : Nat) (s : Store) : (Resolver.resolve memory svc n s).2 = s := by
  unfold Resolver.resolve
  induction n - 1 with
  | zero => rfl
  | succ more ih =>
    rw [Resolver.attempts]
    split
    · rename_i h
      exact (congrArg Prod.snd h).symm
    · rename_i h
      cases congrArg Prod.snd h
      exact ih

/-- A command does to a store what it is out for. -/
theorem contents_run (c : Command) (s : Store) :
    (c.run memory s).2.contents = aimed s.contents c.aim := by
  cases c with
  | write svc q r =>
    rw [Mirrors.run_write, Command.aim]
    split
    · rename_i hr
      exact contents_writeRecord svc q hr s
    · rename_i hr
      rw [writeRecord]
      cases hv : r.validate with
      | error f => rfl
      | ok => exact absurd hv hr
  | clear svc q => exact contents_clearRecord svc q s
  | deregister svc q => exact contents_clearRecord svc q s
  | register svc ip port drawn kind version now =>
    obtain ⟨reg, hreg⟩ : ∃ reg, reg = Registration.ofInstance ip port drawn kind version now :=
      ⟨_, rfl⟩
    have hvalid : reg.record.validate = .ok () := by
      rw [hreg]
      exact Record.validate_ofInstance ..
    rw [Mirrors.run_register hreg, Command.aim, ← hreg]
    exact contents_writeRecord svc reg.sequence hvalid s
  | put key value => exact contents_create s key value
  | remove key => exact contents_delete s key
  | resolve svc n => exact congrArg Store.contents (resolve_snd svc n s)
  | read | records | allRecords | endpoints | get | list => rfl

/-- Whether something stands at a key makes no difference to who is out for another one. -/
theorem aimed_update (h : ¬ c.Aims key) (held : String → Option String) (w : Option String) :
    aimed (Function.update held key w) c.aim = Function.update (aimed held c.aim) key w := by
  rcases haim : c.aim with _ | ⟨k, _ | value⟩
  · rfl
  · have hk : k ≠ key := by
      rintro rfl
      exact h ⟨_, haim⟩
    exact Function.update_comm hk.symm ..
  · have hk : k ≠ key := by
      rintro rfl
      exact h ⟨_, haim⟩
    simp only [aimed, Function.update_of_ne hk]
    exact Function.update_comm hk.symm ..

/-- Who is out for another key leaves this one alone. -/
theorem aimed_of_not_aims (h : ¬ c.Aims key) (held : String → Option String) :
    aimed held c.aim key = held key := by
  have hsame := congrFun (aimed_update h held (held key)) key
  rw [Function.update_eq_self, Function.update_self] at hsame
  exact hsame

theorem contents_after {cs : List Command} (h : ∀ c ∈ cs, ¬ c.Aims key) (s : Store) :
    (after memory cs s).contents key = s.contents key := by
  induction cs generalizing s with
  | nil => rfl
  | cons c cs ih =>
    obtain ⟨hc, hcs⟩ := List.forall_mem_cons.1 h
    calc (after memory cs (c.run memory s).2).contents key
        = (c.run memory s).2.contents key := ih hcs _
      _ = s.contents key := by rw [contents_run, aimed_of_not_aims hc]

end Registry
end Muster
