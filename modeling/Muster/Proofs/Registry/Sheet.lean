/-
The registry is a map. Over a store, the commands on one service answer what a plain map from
sequences to records answers, for any texts as names, sequences and fields. One command keeps store
and map alike; from that a run of commands gives exactly the answers of the map, and no others.
-/
import Muster.Proofs.Registry.Listing
import Muster.Proofs.Registry.Record
import Muster.Proofs.Store.Entries
import Muster.Registry.Sheet

namespace Muster.Registry

open Muster.Path (isUnder)

/-- Below the directory of a service, a store holds what the map holds. -/
structure Mirrors (svc : Service) (m : Sheet) (s : Store) : Prop where
  held : ∀ {q r}, m q = some r → ∃ e ∈ s.entries, e.key = svc.key q
  known : ∀ e ∈ s.entries, isUnder svc.directory e.key = true →
    ∃ q r, e.key = svc.key q ∧ m q = some r ∧ e.value = r.encode ∧ r.validate = .ok ()

namespace Mirrors

variable {svc : Service} {m : Sheet} {s : Store} {q : String}

theorem empty (h : ∀ e ∈ s.entries, isUnder svc.directory e.key = false) :
    Mirrors svc .empty s :=
  ⟨nofun, fun e he hu => by rw [h e he] at hu; cases hu⟩

/-- An entry at the key of a sequence holds the record of that sequence. -/
theorem at_key (h : Mirrors svc m s) {e : Entry} (he : e ∈ s.entries) (hkey : e.key = svc.key q) :
    ∃ r, m q = some r ∧ e.value = r.encode ∧ r.validate = .ok () := by
  obtain ⟨p, r, hp, hr⟩ := h.known e he (hkey ▸ svc.isUnder_key q)
  rw [hkey, svc.key_inj] at hp
  exact ⟨r, hp ▸ hr⟩

theorem find?_some (h : Mirrors svc m s) {e : Entry}
    (hf : Store.find? (svc.key q) s.entries = some e) :
    ∃ r, m q = some r ∧ e.value = r.encode ∧ r.validate = .ok () :=
  have ⟨he, hkey⟩ := Store.find?_some hf
  h.at_key he hkey

theorem find?_none (h : Mirrors svc m s) (hf : Store.find? (svc.key q) s.entries = none) :
    m q = none := by
  rcases hm : m q with _ | r
  · rfl
  · obtain ⟨e, he, hkey⟩ := h.held hm
    exact absurd hkey (Store.find?_none hf e he)

/-! ## What keeps store and map alike -/

theorem put (h : Mirrors svc m s) {t : Store} {r : Record} {i : Nat} (hr : r.validate = .ok ())
    (ht : ∀ e, e ∈ t.entries ↔ e = ⟨svc.key q, r.encode, i⟩ ∨ e ∈ s.entries) (hq : m q = none) :
    Mirrors svc (m.put q r) t := by
  constructor
  · intro p a hp
    unfold Sheet.put at hp
    split at hp
    · rename_i hpq
      exact ⟨_, (ht _).2 (.inl rfl), by rw [hpq]⟩
    · obtain ⟨e, he, hkey⟩ := h.held hp
      exact ⟨e, (ht e).2 (.inr he), hkey⟩
  · intro e he hu
    rcases (ht e).1 he with rfl | he
    · exact ⟨q, r, rfl, if_pos rfl, rfl, hr⟩
    · obtain ⟨p, a, hkey, hp, ha⟩ := h.known e he hu
      refine ⟨p, a, hkey, ?_, ha⟩
      -- an entry from before is not at the sequence, which was free
      have hpq : p ≠ q := by
        rintro rfl
        rw [hq] at hp; cases hp
      rw [Sheet.put, if_neg hpq, hp]

theorem drop (h : Mirrors svc m s) {t : Store}
    (ht : ∀ e, e ∈ t.entries ↔ e ∈ s.entries ∧ e.key ≠ svc.key q) : Mirrors svc (m.drop q) t := by
  constructor
  · intro p a hp
    unfold Sheet.drop at hp
    split at hp
    · cases hp
    · rename_i hpq
      obtain ⟨e, he, hkey⟩ := h.held hp
      exact ⟨e, (ht e).2 ⟨he, by rwa [hkey, Ne, svc.key_inj]⟩, hkey⟩
  · intro e he hu
    obtain ⟨he, hne⟩ := (ht e).1 he
    obtain ⟨p, a, hkey, hp, ha⟩ := h.known e he hu
    refine ⟨p, a, hkey, ?_, ha⟩
    have hpq : p ≠ q := by rwa [hkey, Ne, svc.key_inj] at hne
    rw [Sheet.drop, if_neg hpq, hp]

/-- Dropping a sequence that is free changes nothing. -/
theorem drop_free (h : Mirrors svc m s) (hq : m q = none) : Mirrors svc (m.drop q) s := by
  have hm : m.drop q = m := by
    funext p
    unfold Sheet.drop
    split
    · rename_i hpq
      rw [hpq, hq]
    · rfl
  rwa [hm]

/-! ## One command after another -/

theorem write (h : Mirrors svc m s) (q : String) (r : Record) :
    ∃ n, Sheet.Writes svc m q r (writeRecord memory svc q r s).1 n ∧
      Mirrors svc n (writeRecord memory svc q r s).2 := by
  unfold writeRecord
  rcases hv : r.validate with f | ⟨⟩
  · obtain ⟨cause, rfl⟩ := Record.validate_error hv
    exact ⟨m, .invalid hv, h⟩
  · rcases hf : Store.find? (svc.key q) s.entries with _ | e
    · obtain ⟨t, hcreate, ht⟩ := Store.create_free hf r.encode
      have hq := h.find?_none hf
      refine ⟨m.put q r, ?_⟩
      simp only [memory, hcreate]
      exact ⟨.written hv hq, h.put hv ht hq⟩
    · obtain ⟨held, hheld, -⟩ := h.find?_some hf
      refine ⟨m, ?_⟩
      simp only [memory, Store.create_taken hf]
      exact ⟨.taken hv hheld, h⟩

theorem clear (h : Mirrors svc m s) (q : String) :
    (clearRecord memory svc q s).1 = .ok () ∧
      Mirrors svc (m.drop q) (clearRecord memory svc q s).2 := by
  unfold clearRecord
  -- that nothing was there is no fault
  rcases hf : Store.find? (svc.key q) s.entries with _ | e
  · simp only [memory, Store.delete_missing hf]
    exact ⟨rfl, h.drop_free (h.find?_none hf)⟩
  · obtain ⟨t, hdelete, ht⟩ := Store.delete_held hf
    simp only [memory, hdelete]
    exact ⟨trivial, h.drop ht⟩

theorem read (h : Mirrors svc m s) (q : String) :
    Sheet.Step svc m (.read svc q) ((Command.read svc q).run memory s).1 m := by
  show Sheet.Step svc m _ (((s.get (svc.key q)).bind fun e => Record.decode e.value).map .record) m
  rcases hf : Store.find? (svc.key q) s.entries with _ | e
  · rw [Store.get_missing hf]
    exact .missing (h.find?_none hf)
  · obtain ⟨r, hr, hvalue, hvalid⟩ := h.find?_some hf
    rw [Store.get_held hf]
    show Sheet.Step svc m _ ((Record.decode e.value).map .record) m
    rw [hvalue, Record.decode_encode hvalid]
    exact .found hr

/-- The entries that a list of the service is made of. -/
theorem mem_listed (h : Mirrors svc m s) {e : Entry} :
    (e ∈ s.entries.filter fun e => e.key != svc.directory && isUnder svc.directory e.key) ↔
      e ∈ s.entries ∧ isUnder svc.directory e.key = true := by
  rw [List.mem_filter, Bool.and_eq_true, bne_iff_ne]
  refine and_congr_right fun he => ⟨And.right, fun hu => ⟨?_, hu⟩⟩
  obtain ⟨q, r, hkey, -⟩ := h.known e he hu
  rw [hkey]
  exact svc.key_ne_directory q

theorem lists (h : Mirrors svc m s) :
    m.Lists (serviceRecords svc
      (s.entries.filter fun e => e.key != svc.directory && isUnder svc.directory e.key)) := by
  refine ⟨recordsOf_ordered _, fun q => ?_⟩
  have reads {e : Entry} (he : e ∈ s.entries) (hkey : e.key = svc.key q) :
      ∃ r, m q = some r ∧ Record.decode e.value = .ok r := by
    obtain ⟨r, hr, hvalue, hvalid⟩ := h.at_key he hkey
    exact ⟨r, hr, hvalue ▸ Record.decode_encode hvalid⟩
  unfold serviceRecords
  rcases hl : List.lookup q _ with _ | r
  · rcases hm : m q with _ | a
    · rfl
    · -- the entry of the sequence would be shown
      obtain ⟨e, he, hkey⟩ := h.held hm
      obtain ⟨r, -, hr⟩ := reads he hkey
      have hlisted := h.mem_listed.2 ⟨he, hkey ▸ svc.isUnder_key q⟩
      obtain ⟨b, hb⟩ := recordsOf_of_entry hlisted (hkey ▸ svc.afterText_key q) hr
      rw [hl] at hb
      cases hb
  · obtain ⟨e, he, hname, hr⟩ := entry_of_recordsOf hl
    obtain ⟨a, ha, hread⟩ := reads (h.mem_listed.1 he).1 (afterText_iff.1 hname)
    rw [hr] at hread
    cases hread
    exact ha.symm

theorem records (h : Mirrors svc m s) :
    Sheet.Step svc m (.records svc) ((Command.records svc).run memory s).1 m := by
  show Sheet.Step svc m _ (((presentOr (s.list svc.directory)).map (serviceRecords svc)).map .records) m
  have hlists := h.lists
  unfold Store.list
  split
  · rename_i hnone
    rw [hnone] at hlists
    exact .records hlists
  · exact .records hlists

theorem run_write (r : Record) :
    (Command.write svc q r).run memory s =
      ((writeRecord memory svc q r s).1.map fun _ => .done, (writeRecord memory svc q r s).2) := rfl

/-- Registering is writing the record of the instance. -/
theorem run_register {ip : Ip} {port drawn : Nat} {kind : Kind} {version now : String}
    {reg : Registration} (hreg : reg = .ofInstance ip port drawn kind version now) :
    (Command.register svc ip port drawn kind version now).run memory s =
      ((writeRecord memory svc reg.sequence reg.record s).1.map fun _ => .registered reg,
        (writeRecord memory svc reg.sequence reg.record s).2) := by
  subst hreg
  unfold Command.run register replyWith Registration.ofInstance
  dsimp only
  generalize sequenceFor _ _ = q
  generalize Record.ofInstance _ _ _ _ _ = r
  rcases writeRecord memory svc q r s with ⟨f | ⟨⟩, t⟩ <;> rfl

/-- One command is answered as the map answers it, and leaves store and map alike. -/
theorem step (h : Mirrors svc m s) {c : Command} (hc : c.concerns svc) :
    ∃ n, Sheet.Step svc m c (c.run memory s).1 n ∧ Mirrors svc n (c.run memory s).2 := by
  cases c with
  | write _ q r =>
    cases hc
    rw [run_write]
    obtain ⟨n, hw, hn⟩ := h.write q r
    generalize writeRecord memory svc q r s = w at hw hn ⊢
    exact ⟨n, .write hw, hn⟩
  | read _ q =>
    cases hc
    exact ⟨m, h.read q, h⟩
  | clear _ q =>
    cases hc
    obtain ⟨hdone, hn⟩ := h.clear q
    refine ⟨m.drop q, ?_, hn⟩
    show Sheet.Step svc m _ ((clearRecord memory svc q s).1.map _) _
    rw [hdone]
    exact .clear q
  | records _ =>
    cases hc
    exact ⟨m, h.records, h⟩
  | register _ ip port drawn kind version now =>
    cases hc
    obtain ⟨reg, hreg⟩ : ∃ reg, reg = Registration.ofInstance ip port drawn kind version now :=
      ⟨_, rfl⟩
    rw [run_register hreg]
    obtain ⟨n, hw, hn⟩ := h.write reg.sequence reg.record
    generalize writeRecord memory svc reg.sequence reg.record s = w at hw hn ⊢
    exact ⟨n, .register hreg hw, hn⟩
  | deregister _ q =>
    cases hc
    obtain ⟨hdone, hn⟩ := h.clear q
    refine ⟨m.drop q, ?_, hn⟩
    show Sheet.Step svc m _ ((clearRecord memory svc q s).1.map _) _
    rw [hdone]
    exact .deregister q
  | allRecords | endpoints | resolve | put | remove | get | list => cases hc

end Mirrors

/-! ## The answers of a map are determined -/

namespace Sheet

variable {svc : Service} {m : Sheet}

theorem Lists.unique {rs ts : List (String × Record)} (hr : m.Lists rs) (ht : m.Lists ts) : rs = ts :=
  ordered_ext hr.ordered ht.ordered fun q => (hr.whole q).trans (ht.whole q).symm

theorem Writes.unique {q : String} {r : Record} {a b : Except Fault Unit} {n k : Sheet}
    (h : Writes svc m q r a n) (g : Writes svc m q r b k) : a = b ∧ n = k := by
  cases h <;> cases g <;> simp_all

theorem Step.unique {c : Command} {a b : Except Fault Reply} {n k : Sheet} (h : Step svc m c a n)
    (g : Step svc m c b k) : a = b ∧ n = k := by
  cases h with
  | write hw =>
    cases g with
    | write gw =>
      obtain ⟨rfl, rfl⟩ := hw.unique gw
      exact ⟨rfl, rfl⟩
  | register hreg hw =>
    cases g with
    | register greg gw =>
      cases hreg.trans greg.symm
      obtain ⟨rfl, rfl⟩ := hw.unique gw
      exact ⟨rfl, rfl⟩
  | found hq =>
    cases g with
    | found gq =>
      cases hq.symm.trans gq
      exact ⟨rfl, rfl⟩
    | missing gq => cases hq.symm.trans gq
  | missing hq =>
    cases g with
    | found gq => cases hq.symm.trans gq
    | missing => exact ⟨rfl, rfl⟩
  | clear => cases g; exact ⟨rfl, rfl⟩
  | deregister => cases g; exact ⟨rfl, rfl⟩
  | records hl =>
    cases g with
    | records gl =>
      cases hl.unique gl
      exact ⟨rfl, rfl⟩

end Sheet

/-! ## Runs -/

/-- From a store that mirrors a map, a run of commands is answered as by the map and in no other
way. -/
theorem Mirrors.answers_iff {svc : Service} {m : Sheet} {s : Store} (h : Mirrors svc m s)
    {cs : List Command} (hc : ∀ c ∈ cs, c.concerns svc) (as : List (Except Fault Reply)) :
    Sheet.Answers svc m cs as ↔ as = answers memory cs s := by
  induction cs generalizing m s as with
  | nil =>
    constructor
    · rintro ⟨⟩
      rfl
    · rintro rfl
      exact .nil
  | cons c cs ih =>
    -- the map takes the one step that the store has taken, since its answers are determined
    obtain ⟨n, hstep, hn⟩ := h.step (hc c List.mem_cons_self)
    have hrest := ih hn fun d hd => hc d (List.mem_cons_of_mem _ hd)
    constructor
    · rintro (_ | ⟨gstep, gs⟩)
      obtain ⟨rfl, rfl⟩ := gstep.unique hstep
      rw [(hrest _).1 gs]
      rfl
    · rintro rfl
      exact .cons hstep ((hrest _).2 rfl)

/-- Over a store with nothing under the directory of a service, commands on that service are answered
as by an empty map, and in no other way. -/
theorem registry_is_map {svc : Service} {s : Store} {cs : List Command}
    (hs : ∀ e ∈ s.entries, isUnder svc.directory e.key = false) (hc : ∀ c ∈ cs, c.concerns svc)
    (as : List (Except Fault Reply)) :
    Sheet.Answers svc .empty cs as ↔ as = answers memory cs s :=
  (Mirrors.empty hs).answers_iff hc as

/-- A cluster and a sequence with slashes, the empty sequence, and texts with quotes and newlines:
what has been written is kept as it is, once. -/
theorem odd_texts_kept :
    let svc : Service := ⟨"orders", "eu/1"⟩
    let r : Record := ⟨"1 \"a\"\n", "10.0.0.1", "80", .http, "\\"⟩
    answers memory
      [.write svc "" r, .write svc "" { r with version := "2" }, .write svc "a//b" { r with port := " " },
        .write svc "a//b" r, .records svc, .clear svc "", .read svc "", .read svc "a//b"]
      (Store.empty 1) =
    [.ok .done, .error (.conflict "/corral-service.orders.eu/1/"),
      .error (.invalidRecord "service_port is empty"), .ok .done,
      .ok (.records [("", r), ("a//b", r)]), .ok .done,
      .error (.notFound "/corral-service.orders.eu/1/"), .ok (.record r)] := by
  intro svc r
  have valid (v : String) : { r with version := v }.validate = .ok () := by
    unfold Record.validate
    rw [if_neg (show trimBlanks "80" ≠ "" by decide),
      if_neg (show trimBlanks "10.0.0.1" ≠ "" by decide)]
  have blank : { r with port := " " }.validate = .error (.invalidRecord "service_port is empty") := by
    unfold Record.validate
    rw [if_pos (by decide)]
  have key : "/corral-service.orders.eu/1/" = svc.key "" := by decide
  have listed : ((Sheet.empty.put "" r).put "a//b" r).Lists [("", r), ("a//b", r)] := by
    refine ⟨by decide, fun q => ?_⟩
    rw [List.lookup_cons, List.lookup_cons, List.lookup_nil]
    unfold Sheet.put Sheet.empty
    split
    · simp_all
    · split <;> simp_all
  rw [key]
  have concern : ∀ c ∈ [Command.write svc "" r, .write svc "" { r with version := "2" },
      .write svc "a//b" { r with port := " " }, .write svc "a//b" r, .records svc, .clear svc "",
      .read svc "", .read svc "a//b"], c.concerns svc := by simp [Command.concerns]
  refine ((registry_is_map (fun _ he => absurd he List.not_mem_nil) concern _).1 ?_).symm
  refine .cons (.write (.written (valid _) rfl)) (.cons (.write (.taken (valid _) (if_pos rfl))) ?_)
  refine .cons (.write (.invalid blank)) (.cons (.write (.written (valid _) (if_neg (by decide)))) ?_)
  refine .cons (.records listed) (.cons (.clear "") (.cons (.missing (if_pos rfl)) ?_))
  refine .cons (.found ?_) .nil
  unfold Sheet.drop Sheet.put
  rw [if_neg (by decide), if_pos rfl]

end Muster.Registry
