/-
The attempts of a resolution. The directory of the service is listed again and again, as often as is
allowed and at least once, until a listing succeeds or tells that there is no such directory. That listing
is the result: the addresses of all records of the service that can be read in it, or none. Any other
failure is told only where it is the last one. Main statement: `resolve_listings`.
-/
import Muster.Proofs.Registry.Views
import Muster.Proofs.Tries
import Muster.Resolver.Resolve

namespace Muster

/-- A backend that writes down which directories are listed. -/
def Registry.Backend.recorded {σ : Type} (b : Registry.Backend σ) :
    Registry.Backend (σ × List String) where
  create key value s := ((b.create key value s.1).1, (b.create key value s.1).2, s.2)
  get key s := ((b.get key s.1).1, (b.get key s.1).2, s.2)
  delete key s := ((b.delete key s.1).1, (b.delete key s.1).2, s.2)
  list dir s := ((b.list dir s.1).1, (b.list dir s.1).2, s.2 ++ [dir])

namespace Resolver

open Registry (Backend Record Service afterText recordsOf)

/-! ## What a listing shows -/

/-- The record at a sequence of the service: of the entries at its key, the last one that can be read. -/
def Shows (svc : Service) (entries : List Entry) (q : String) (r : Record) : Prop :=
  ∃ before e after, entries = before ++ e :: after ∧ e.key = svc.key q ∧
    Record.decode e.value = .ok r ∧
    ∀ e' ∈ after, e'.key = svc.key q → ∃ f, Record.decode e'.value = .error f

/-- A set is what a listing shows of the service. Of records at one address the last one by sequence
counts. -/
structure Found (svc : Service) (entries : List Entry) (set : AddressSet) : Prop where
  ordered : set.addrs.Pairwise (· < ·)
  addrs_iff (addr : String) : addr ∈ set.addrs ↔ ∃ q r, Shows svc entries q r ∧ r.address = addr
  version_iff (addr version : String) : ⟨addr, version⟩ ∈ set.addresses ↔
    ∃ q r, Shows svc entries q r ∧ r.address = addr ∧ r.version = version ∧
      ∀ q' r', Shows svc entries q' r' → r'.address = addr → q' ≤ q
  /-- Where each key stands once, every record that can be read counts. -/
  all : (entries.map (·.key)).Nodup → ∀ addr, addr ∈ set.addrs ↔
    ∃ e ∈ entries, ∃ q r, e.key = svc.key q ∧ Record.decode e.value = .ok r ∧ r.address = addr

section Listing

variable {svc : Service} {entries : List Entry} {q : String} {r : Record}

theorem getLast?_filterMap {α β : Type} {f : α → Option β} {l : List α} {b : β} :
    (l.filterMap f).getLast? = some b ↔
      ∃ front a back, l = front ++ a :: back ∧ f a = some b ∧ ∀ c ∈ back, f c = none := by
  constructor
  · intro hlast
    obtain ⟨before, hbefore⟩ := List.getLast?_eq_some_iff.1 hlast
    obtain ⟨front, rest, rfl, -, hrest⟩ := List.filterMap_eq_append_iff.1 hbefore
    obtain ⟨skipped, a, back, rfl, -, ha, hback⟩ := List.filterMap_eq_cons_iff.1 hrest
    exact ⟨front ++ skipped, a, back, (List.append_assoc ..).symm, ha,
      List.filterMap_eq_nil_iff.1 hback⟩
  · rintro ⟨front, a, back, rfl, ha, hback⟩
    rw [List.filterMap_append, List.filterMap_cons_some ha, List.filterMap_eq_nil_iff.2 hback,
      List.getLast?_append]
    rfl

/-- The last of a list that is ordered by its keys. -/
theorem getLast?_of_ordered {β : Type} {l : List (String × β)} (h : l.Pairwise (·.1 < ·.1))
    {p : String × β} : l.getLast? = some p ↔ p ∈ l ∧ ∀ p' ∈ l, p'.1 ≤ p.1 := by
  constructor
  · intro hlast
    obtain ⟨front, rfl⟩ := List.getLast?_eq_some_iff.1 hlast
    refine ⟨List.mem_append_right _ (List.mem_singleton_self p), ?_⟩
    intro p' hp'
    rcases List.mem_append.1 hp' with hfront | hp'
    · exact le_of_lt ((List.pairwise_append.1 h).2.2 p' hfront p (List.mem_singleton_self p))
    · exact le_of_eq (congrArg Prod.fst (List.mem_singleton.1 hp'))
  · rintro ⟨hp, hmax⟩
    rcases List.eq_nil_or_concat l with rfl | ⟨front, last, rfl⟩
    · cases hp
    · rw [List.concat_eq_append] at h hp hmax ⊢
      rcases List.mem_append.1 hp with hfront | hlast
      · have hbefore := (List.pairwise_append.1 h).2.2 p hfront last (List.mem_singleton_self last)
        exact absurd hbefore (not_lt.2 (hmax last (by simp)))
      · rw [List.mem_singleton.1 hlast, List.getLast?_concat]

/-- What an entry shows at a sequence of the service. -/
theorem shown_cases (svc : Service) (q : String) (e : Entry) :
    (∀ r, Registry.shown (afterText (svc.directory ++ "/")) q e = some r ↔
      e.key = svc.key q ∧ Record.decode e.value = .ok r) ∧
    (Registry.shown (afterText (svc.directory ++ "/")) q e = none ↔
      (e.key = svc.key q → ∃ f, Record.decode e.value = .error f)) := by
  have hname : afterText (svc.directory ++ "/") e.key = some q ↔ e.key = svc.key q :=
    Registry.afterText_iff
  by_cases hkey : e.key = svc.key q
  · rw [Registry.shown, if_pos (hname.2 hkey)]
    cases Record.decode e.value <;> simp [hkey, Except.toOption]
  · rw [Registry.shown, if_neg (mt hname.1 hkey)]
    simp [hkey]

theorem shows_iff_lookup : Shows svc entries q r ↔
    (recordsOf (afterText (svc.directory ++ "/")) entries).lookup q = some r := by
  rw [Registry.lookup_recordsOf, getLast?_filterMap]
  simp only [(shown_cases svc q _).1, (shown_cases svc q _).2, Shows, and_assoc]

/-- Where each key stands once, any entry that can be read shows its record. -/
theorem shows_iff_of_nodup (h : (entries.map (·.key)).Nodup) : Shows svc entries q r ↔
    ∃ e ∈ entries, e.key = svc.key q ∧ Record.decode e.value = .ok r := by
  constructor
  · rintro ⟨before, e, after, rfl, hkey, hr, -⟩
    exact ⟨e, by simp, hkey, hr⟩
  · rintro ⟨e, he, hkey, hr⟩
    obtain ⟨before, after, rfl⟩ := List.append_of_mem he
    refine ⟨before, e, after, rfl, hkey, hr, ?_⟩
    intro e' he' hkey'
    rw [List.map_append, List.map_cons, List.nodup_append, List.nodup_cons] at h
    exact absurd (List.mem_map.2 ⟨e', he', hkey'.trans hkey.symm⟩) h.2.1.1

/-- The addresses that are read from a listing. -/
def readOff (svc : Service) (entries : List Entry) : AddressSet :=
  .ofRecords ((Registry.serviceRecords svc entries).map (·.2))

theorem readOff_found (svc : Service) (entries : List Entry) : Found svc entries (readOff svc entries) := by
  set rs := Registry.serviceRecords svc entries with hrs
  have hordered : rs.Pairwise (·.1 < ·.1) := Registry.recordsOf_ordered entries
  have hmem (q : String) (r : Record) : (q, r) ∈ rs ↔ Shows svc entries q r := by
    have honce : (rs.map (·.1)).Nodup := List.pairwise_map.2 (hordered.imp ne_of_lt)
    rw [shows_iff_lookup]
    exact ⟨lookup_of_mem honce, mem_of_lookup⟩
  have haddrs (addr : String) :
      addr ∈ (readOff svc entries).addrs ↔ ∃ q r, Shows svc entries q r ∧ r.address = addr := by
    rw [readOff, AddressSet.mem_ofRecords, ← hrs]
    simp only [List.map_map, List.mem_map, Prod.exists, hmem, Function.comp]
  refine ⟨AddressSet.ofList_ordered _, haddrs, ?_, ?_⟩
  · intro addr version
    have hat : (rs.filter fun p => p.2.address == addr).Pairwise (·.1 < ·.1) := hordered.filter _
    rw [readOff, AddressSet.mem_addresses_ofRecords, ← hrs, List.filter_map, List.getLast?_map]
    simp only [Option.map_map, Option.map_eq_some_iff, Prod.exists]
    refine exists_congr fun q => exists_congr fun r => ?_
    -- the records stand in the order of their sequences, so the last one has the greatest
    have hlast := getLast?_of_ordered hat (p := (q, r))
    simp only [List.mem_filter, beq_iff_eq, hmem, Prod.forall, and_imp] at hlast
    constructor
    · rintro ⟨h, hversion⟩
      obtain ⟨⟨hshows, haddr⟩, hmax⟩ := hlast.1 h
      exact ⟨hshows, haddr, hversion, hmax⟩
    · rintro ⟨hshows, haddr, hversion, hmax⟩
      exact ⟨hlast.2 ⟨⟨hshows, haddr⟩, hmax⟩, hversion⟩
  · intro honce addr
    simp only [haddrs, shows_iff_of_nodup honce]
    constructor
    · rintro ⟨q, r, ⟨e, he, hkey, hr⟩, haddr⟩
      exact ⟨e, he, q, r, hkey, hr, haddr⟩
    · rintro ⟨e, he, q, r, hkey, hr, haddr⟩
      exact ⟨q, r, ⟨e, he, hkey, hr⟩, haddr⟩

end Listing

/-! ## One attempt after another -/

/-- What comes of listing a directory. -/
abbrev Listed := Except Fault (List Entry)

/-- A listing that ends a resolution: it succeeds, or there is no such directory. -/
def Settles (listing : Listed) : Prop :=
  (∃ entries, listing = .ok entries) ∨ ∃ key, listing = .error (.notFound key)

/-- What a resolution tells of a listing that it takes as its last one. -/
def told (svc : Service) : Listed → Except Fault AddressSet
  | .ok entries => .ok (readOff svc entries)
  | .error (.notFound _) => .ok {}
  | .error f => .error f

section Attempting

variable {σ : Type} {b : Backend σ} {svc : Service} {s t : σ} {listing : Listed}

theorem lookup_eq (h : b.list svc.directory s = (listing, t)) :
    lookup b svc s = (told svc listing, t) := by
  simp only [lookup, Registry.listService, h]
  rcases listing with f | entries
  · cases f <;> rfl
  · rfl

theorem told_of_not_settles (svc : Service) (h : ¬ Settles listing) :
    ∃ f, listing = .error f ∧ told svc listing = .error f := by
  rcases listing with f | entries
  · cases f with
    | notFound key => exact absurd (.inr ⟨key, rfl⟩) h
    | _ => exact ⟨_, rfl, rfl⟩
  · exact absurd (.inl ⟨entries, rfl⟩) h

theorem told_of_settles (svc : Service) (h : Settles listing) : ∃ set, told svc listing = .ok set := by
  rcases h with ⟨entries, rfl⟩ | ⟨key, rfl⟩
  · exact ⟨_, rfl⟩
  · exact ⟨_, rfl⟩

theorem attempts_settled (h : b.list svc.directory s = (listing, t)) (hs : Settles listing) (more : Nat) :
    attempts b svc more s = (told svc listing, t) := by
  obtain ⟨set, hset⟩ := told_of_settles svc hs
  cases more with
  | zero => exact lookup_eq h
  | succ more => rw [attempts, lookup_eq h, hset]

theorem attempts_failed (h : b.list svc.directory s = (listing, t)) (hs : ¬ Settles listing) (more : Nat) :
    attempts b svc (more + 1) s = attempts b svc more t := by
  obtain ⟨f, -, hf⟩ := told_of_not_settles svc hs
  rw [attempts, lookup_eq h, hf]

/-- Failed listings in front leave it to the attempts behind them. -/
theorem attempts_behind (k more : Nat)
    (h : ∀ x ∈ (tries b.list (List.replicate k svc.directory) s).1, ¬ Settles x.2) :
    attempts b svc (k + more) s =
      attempts b svc more (tries b.list (List.replicate k svc.directory) s).2 := by
  induction k generalizing s with
  | zero => rw [Nat.zero_add]; rfl
  | succ k ih =>
    rcases hlist : b.list svc.directory s with ⟨listing, t⟩
    simp only [List.replicate_succ, tries, hlist, List.forall_mem_cons] at h ⊢
    rw [Nat.succ_add, attempts_failed hlist h.1, ih h.2]

/-- Which listing decides among those that are allowed: the first one that settles it, or the last. -/
theorem listings_split (b : Backend σ) (svc : Service) (most : Nat) (s : σ) :
    ∃ k rest listing t, most + 1 = k + 1 + rest ∧
      (∀ x ∈ (tries b.list (List.replicate k svc.directory) s).1, ¬ Settles x.2) ∧
      b.list svc.directory (tries b.list (List.replicate k svc.directory) s).2 = (listing, t) ∧
      (Settles listing ∨ ¬ Settles listing ∧ rest = 0) := by
  -- the tries are all of one directory, so a part of them is known by its length
  have hsome : List.replicate (most + 1) svc.directory ≠ [] := List.cons_ne_nil _ _
  obtain ⟨front, e, back, listing, t, hsplit, hfront, hlist, hlast⟩ :=
    tries_decided b.list Settles hsome s
  obtain ⟨hlength, hall, hback⟩ := List.replicate_eq_append_iff.1 hsplit
  have he : e = svc.directory := List.eq_of_mem_replicate (hback ▸ List.mem_cons_self)
  rw [List.length_cons] at hlength
  rw [hall] at hfront hlist
  rw [he] at hlist
  refine ⟨front.length, back.length, listing, t, by omega, hfront, hlist, ?_⟩
  rw [List.length_eq_zero_iff]
  exact hlast

/-- The listing that decides makes the result, and what it leaves behind stays. -/
theorem resolve_eq_told {k rest most : Nat} (hmost : max 1 most = k + 1 + rest)
    (hfront : ∀ x ∈ (tries b.list (List.replicate k svc.directory) s).1, ¬ Settles x.2)
    (hlist : b.list svc.directory (tries b.list (List.replicate k svc.directory) s).2 = (listing, t))
    (hlast : Settles listing ∨ ¬ Settles listing ∧ rest = 0) :
    resolve b svc most s = (told svc listing, t) := by
  have hattempts : most - 1 = k + rest := by omega
  rw [resolve, hattempts, attempts_behind k rest hfront]
  rcases hlast with hsettles | ⟨-, rfl⟩
  · exact attempts_settled hlist hsettles rest
  · exact lookup_eq hlist

/-- The directory is listed down to the listing that decides, and nothing else is. -/
theorem resolve_recorded {k rest most : Nat} (hmost : max 1 most = k + 1 + rest)
    (hfront : ∀ x ∈ (tries b.list (List.replicate k svc.directory) s).1, ¬ Settles x.2)
    (hlist : b.list svc.directory (tries b.list (List.replicate k svc.directory) s).2 = (listing, t))
    (hlast : Settles listing ∨ ¬ Settles listing ∧ rest = 0) (log : List String) :
    resolve b.recorded svc most (s, log) =
      (told svc listing, t, log ++ List.replicate (k + 1) svc.directory) := by
  have hnoted : tries b.recorded.list (List.replicate k svc.directory) (s, log) =
      ((tries b.list (List.replicate k svc.directory) s).1,
        (tries b.list (List.replicate k svc.directory) s).2,
        log ++ (List.replicate k svc.directory).flatMap ([·])) :=
    tries_logged (fun _ _ _ => rfl) _ s log
  have hfront' : ∀ x ∈ (tries b.recorded.list (List.replicate k svc.directory) (s, log)).1,
      ¬ Settles x.2 := by
    rwa [hnoted]
  have hlist' : b.recorded.list svc.directory
      (tries b.recorded.list (List.replicate k svc.directory) (s, log)).2 =
        (listing, t, log ++ List.replicate (k + 1) svc.directory) := by
    rw [hnoted, List.replicate_succ', ← List.append_assoc, List.flatMap_singleton']
    show ((b.list svc.directory _).1, (b.list svc.directory _).2, _) = _
    rw [hlist]
  exact resolve_eq_told hmost hfront' hlist' hlast

end Attempting

/-- A resolution lists the directory of the service and nothing else, at most as often as is allowed and
at least once; it ends with the first listing that succeeds or finds no such directory. From one that
succeeds it takes all readable records of the service, from a missing directory nothing. It fails exactly
if every listing that is allowed would fail, and then with what the last one failed with. -/
theorem resolve_listings {σ : Type} (b : Backend σ) (svc : Service) (maxAttempts : Nat) (s : σ) :
    ∃ k failed last, k + 1 ≤ max 1 maxAttempts ∧
      tries b.list (List.replicate (k + 1) svc.directory) s =
        (failed ++ [(svc.directory, last)], (resolve b svc maxAttempts s).2) ∧
      (∀ log, resolve b.recorded svc maxAttempts (s, log) =
        ((resolve b svc maxAttempts s).1, (resolve b svc maxAttempts s).2,
          log ++ List.replicate (k + 1) svc.directory)) ∧
      (∀ x ∈ failed, ¬ Settles x.2) ∧
      ((∃ entries set, last = .ok entries ∧ (resolve b svc maxAttempts s).1 = .ok set ∧
          Found svc entries set) ∨
        (∃ key, last = .error (.notFound key) ∧ (resolve b svc maxAttempts s).1 = .ok {}) ∨
        ∃ f, last = .error f ∧ ¬ Settles last ∧ k + 1 = max 1 maxAttempts ∧
          (resolve b svc maxAttempts s).1 = .error f) ∧
      ((∃ f, (resolve b svc maxAttempts s).1 = .error f) ↔
        ∀ x ∈ (tries b.list (List.replicate (max 1 maxAttempts) svc.directory) s).1,
          ¬ Settles x.2) := by
  obtain ⟨k, rest, last, t, hmost, hfront, hlist, hlast⟩ := listings_split b svc (maxAttempts - 1) s
  replace hmost : max 1 maxAttempts = k + 1 + rest := by omega
  have hresolve := resolve_eq_told hmost hfront hlist hlast
  have hlisted : tries b.list (List.replicate (k + 1) svc.directory) s =
      ((tries b.list (List.replicate k svc.directory) s).1 ++ [(svc.directory, last)], t) := by
    rw [List.replicate_succ', tries_concat, hlist]
  refine ⟨k, _, last, by omega, by rw [hlisted, hresolve], ?_, hfront, ?_, ?_⟩
  · intro log
    rw [resolve_recorded hmost hfront hlist hlast, hresolve]
  · rw [hresolve]
    rcases hlast with (⟨entries, rfl⟩ | ⟨key, rfl⟩) | ⟨hfails, rfl⟩
    · exact .inl ⟨entries, _, rfl, rfl, readOff_found svc entries⟩
    · exact .inr (.inl ⟨key, rfl, rfl⟩)
    · obtain ⟨f, rfl, htold⟩ := told_of_not_settles svc hfails
      exact .inr (.inr ⟨f, rfl, hfails, hmost.symm, htold⟩)
  · rw [hresolve, hmost, List.replicate_add, tries_append, hlisted]
    rcases hlast with hsettles | ⟨hfails, rfl⟩
    · obtain ⟨set, hset⟩ := told_of_settles svc hsettles
      refine iff_of_false (by simp [hset]) ?_
      intro hnone
      exact hnone (svc.directory, last) (by simp) hsettles
    · obtain ⟨f, -, htold⟩ := told_of_not_settles svc hfails
      refine iff_of_true ⟨f, htold⟩ ?_
      intro x hx
      simp only [List.replicate_zero, tries, List.append_nil, List.mem_append,
        List.mem_singleton] at hx
      rcases hx with hx | rfl
      · exact hfront x hx
      · exact hfails

end Resolver
end Muster
