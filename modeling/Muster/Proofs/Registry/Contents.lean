/-
What there is to be read of a service. Of the entries that a keeper of keys lists, only keys and values
count: entries that hold the same map from keys to values show the same records, in whatever order they
come, wherever they are listed and whenever they were written.
-/
import Muster.Proofs.Registry.Views

namespace Muster.Registry

/-! ## Entries as a map -/

/-- Entries hold exactly the keys of a map, with its values. -/
def Holds (entries : List Entry) (m : String → Option String) : Prop :=
  ∀ key value, (∃ e ∈ entries, e.key = key ∧ e.value = value) ↔ m key = some value

variable {entries es : List Entry} {m : String → Option String} {svc : Service} {q : String}

/-- Entries hold a map if no key stands twice. -/
theorem holds_find? (h : (entries.map (·.key)).Nodup) :
    Holds entries fun key => (Store.find? key entries).map (·.value) := by
  intro key value
  rw [Option.map_eq_some_iff]
  constructor
  · rintro ⟨e, he, rfl, rfl⟩
    cases hf : Store.find? e.key entries with
    | none => exact absurd rfl (Store.find?_none hf e he)
    | some f =>
      obtain ⟨hmem, hkey⟩ := Store.find?_some hf
      exact ⟨f, rfl, congrArg Entry.value (List.inj_on_of_nodup_map h hmem he hkey)⟩
  · rintro ⟨e, he, rfl⟩
    obtain ⟨hmem, hkey⟩ := Store.find?_some he
    exact ⟨e, hmem, hkey, rfl⟩

/-- At a sequence the records show what the map has at its key, if it can be read. -/
theorem Holds.lookup (h : Holds entries m) (svc : Service) (q : String) :
    (serviceRecords svc entries).lookup q =
      (m (svc.key q)).bind fun value => (Record.decode value).toOption := by
  have hname {e : Entry} (he : afterText (svc.directory ++ "/") e.key = some q) : e.key = svc.key q :=
    afterText_iff.1 he
  cases hshown : (serviceRecords svc entries).lookup q with
  | some r =>
    obtain ⟨e, he, hkey, hr⟩ := entry_of_recordsOf hshown
    rw [(h _ _).1 ⟨e, he, hname hkey, rfl⟩, Option.bind_some, hr]
    rfl
  | none =>
    cases hm : m (svc.key q) with
    | none => rfl
    | some value =>
      obtain ⟨e, he, hkey, rfl⟩ := (h _ _).2 hm
      cases hr : Record.decode e.value with
      | error f =>
        rw [Option.bind_some, hr]
        rfl
      | ok r =>
        -- what can be read is shown
        obtain ⟨r', hr'⟩ := recordsOf_of_entry he (hkey ▸ svc.afterText_key q) hr
        exact absurd (hshown.symm.trans hr') nofun

/-- Entries that hold one map show the same records. -/
theorem Holds.serviceRecords_eq (h : Holds entries m) (h' : Holds es m) :
    serviceRecords svc entries = serviceRecords svc es := by
  apply ordered_ext (recordsOf_ordered entries) (recordsOf_ordered es)
  intro q
  exact (h.lookup svc q).trans (h'.lookup svc q).symm

/-- Where no key is one of the service, there are no records. -/
theorem serviceRecords_eq_nil (h : ∀ e ∈ entries, ∀ q, e.key ≠ svc.key q) :
    serviceRecords svc entries = [] := by
  apply ordered_ext (recordsOf_ordered entries) .nil
  intro q
  cases hshown : (recordsOf (afterText (svc.directory ++ "/")) entries).lookup q with
  | none => rfl
  | some r =>
    obtain ⟨e, he, hkey, -⟩ := entry_of_recordsOf hshown
    exact absurd (afterText_iff.1 hkey) (h e he q)

end Muster.Registry
