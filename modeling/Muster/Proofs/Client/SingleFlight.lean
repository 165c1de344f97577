/-
How many dials a cold name of the connection cache costs: one, and all who come get the channel that it
brings, exactly when none of them sees that channel in a state in which it may not be used. The law is
split by how far the dial is: until it ends nothing is cached, and whoever dials does so alone (`Before`);
then its channel is cached and nobody is on the way to another (`Held`), until somebody who saw it dead has
taken it out to close it (`Gone`).
-/
import Muster.Proofs.Client.Order

namespace Muster.Client

/-! ## Calls -/

namespace Act

variable {ς : Type}

/-- A step that neither takes the channel of a name out nor closes that channel, and does not bring a
closed one. -/
def spares (name : String) (i : Nat) : Act ς → Prop
  | takeOut m => m ≠ name
  | close k => k ≠ i
  | answer _ (.ok channel) => channel.closed = false
  | _ => True

end Act

/-- A dial under the name has ended. -/
def Notice.ends (name : String) : Notice → Bool
  | brought m _ | failed m => m == name
  | _ => false

theorem Notice.find?_brought (name : String) (i : Nat) :
    [brought name i].find? (·.ends name) = some (brought name i) := by
  rw [List.find?_singleton, ends, beq_self_eq_true, if_pos rfl]

theorem Notice.find?_failed (name : String) :
    [failed name].find? (·.ends name) = some (failed name) := by
  rw [List.find?_singleton, ends, beq_self_eq_true, if_pos rfl]

/-- The steps a call has at most to go when a usable channel is cached. -/
def Progress.left : Progress → Nat
  | joining => 4
  | queued => 3
  | looking => 2
  | seeing _ => 1
  | _ => 0

namespace Desk

variable {ς : Type}

/-- Nothing is cached under the name, and nobody wants it. -/
def IsCold (d : Desk ς) (name : String) : Prop :=
  d.cache.find? name = none ∧
    ∀ id c, d.caller? id = some c → c.name = name → c.progress.result?.isSome = true

/-- A caller who wants the channel of a name and has come since an earlier desk. -/
def Called (start d : Desk ς) (name : String) (id : Nat) (c : Caller) : Prop :=
  start.caller? id = none ∧ d.caller? id = some c ∧ c.name = name

/-- One dial has begun, its channel is open, and every call has got it. -/
structure Shared (start d : Desk ς) (log : List Notice) (name : String) (i : Nat) : Prop where
  once : log.count (.began name) = 1
  isOpen : d.closed? i = some false
  got : ∀ {id c}, Called start d name id c → c.progress.result? = some (.ok i)

end Desk

/-! ## Where calls can be -/

/-- Where a call can be before a dial has ended. -/
def Progress.isEarly : Progress → Bool
  | looking | joining | queued | dialing => true
  | _ => false

/-- Where a call can be while the channel is cached. -/
def Progress.isNear (i : Nat) : Progress → Bool
  | looking | joining | queued => true
  | seeing k | evicting k | served k => k == i
  | _ => false

theorem Progress.isNear_of_isEarly {p : Progress} (h : p.isEarly = true) (hp : p ≠ .dialing)
    (i : Nat) : p.isNear i = true := by
  cases p with
  | looking | joining | queued => rfl
  | dialing => exact absurd rfl hp
  | seeing | evicting | closing | served | failed => cases h

namespace Desk

variable {ς : Type} {start d d' : Desk ς} {a : Act ς} {notices log : List Notice} {name : String}
  {i : Nat}

section Called

variable {id : Nat} {c : Caller} {p : Progress} {cache : Cache} {channels : List (Channel ς)}

theorem called_turned (hc : d.caller? id = some c) {j : Nat} {e : Caller}
    (h : Called start (d.turned id p cache channels) name j e) :
    (j = id ∧ e = { c with progress := p } ∧ Called start d name id c) ∨
      (j ≠ id ∧ Called start d name j e) := by
  obtain ⟨hs, hj, hn⟩ := h
  rw [caller?_turned hc] at hj
  split at hj
  · rename_i hjd; subst hjd; cases hj; exact .inl ⟨rfl, rfl, hs, hc, hn⟩
  · rename_i hjd; exact .inr ⟨hjd, hs, hj, hn⟩

theorem Called.turned (h : Called start d name id c) :
    Called start (d.turned id p cache channels) name id { c with progress := p } :=
  ⟨h.1, by rw [caller?_turned h.2.1, if_pos rfl], h.2.2⟩

theorem Called.turned_other (hc : d.caller? id = some c) {j : Nat} {e : Caller} (hj : j ≠ id)
    (h : Called start d name j e) : Called start (d.turned id p cache channels) name j e :=
  ⟨h.1, by rw [caller?_turned hc, if_neg hj]; exact h.2.1, h.2.2⟩

/-- Whoever is at another point than the caller whose turn it is stays there. -/
theorem Called.turned_elsewhere (hc : Called start d name id c) {j : Nat} {e : Caller}
    (h : Called start d name j e) (hne : c.progress ≠ e.progress) :
    Called start (d.turned id p cache channels) name j e := by
  refine h.turned_other hc.2.1 fun hj => hne ?_
  have := h.2.1
  rw [hj, hc.2.1] at this
  rw [Option.some.inj this]

/-- What holds of the points of all calls holds after a turn that leads to such a point. -/
theorem forall_turned {P : Progress → Prop} (hc : d.caller? id = some c) (hp : P p)
    (h : ∀ {j e}, Called start d name j e → P e.progress) {j : Nat} {e : Caller}
    (hj : Called start (d.turned id p cache channels) name j e) : P e.progress := by
  rcases called_turned hc hj with ⟨-, rfl, -⟩ | ⟨-, hj⟩
  · exact hp
  · exact h hj

theorem Called.enter {j : Nat} {m : String} (hid : d.caller? id = none)
    (h : Called start (d.enter id m) name j c) :
    c.progress = .looking ∨ Called start d name j c := by
  obtain ⟨hs, hj, hn⟩ := h
  rw [caller?_enter d hid] at hj
  split at hj
  · cases hj; exact .inl rfl
  · exact .inr ⟨hs, hj, hn⟩

theorem Called.entered {j : Nat} {m : String} (hid : d.caller? id = none)
    (h : Called start d name j c) : Called start (d.enter id m) name j c := by
  refine ⟨h.1, ?_, h.2.2⟩
  rw [caller?_enter d hid, if_neg (fun hj => ?_)]
  · exact h.2.1
  · rw [← hj, h.2.1] at hid; cases hid

end Called

/-- Nobody dials but the caller who has the right to. -/
theorem Orderly.dials_alone (ho : Orderly d) {id j : Nat} {e : Caller}
    (hid : d.cache.holds name id = true) (hj : Called start d name j e)
    (he : e.progress = .dialing) : j = id := by
  have h := ho.dialing hj.2.1 he
  rw [hj.2.2] at h
  exact Cache.holds_unique _ _ hid h

/-! ## Those who came before -/

/-- Whoever had come before is still there, and those of them who wanted the channel of the name are
done. -/
structure Settled (start d : Desk ς) (name : String) : Prop where
  kept : ∀ {id}, d.caller? id = none → start.caller? id = none
  done : ∀ {id c}, d.caller? id = some c → c.name = name →
    start.caller? id = none ∨ c.progress.result?.isSome = true

theorem IsCold.settled (h : start.IsCold name) : Settled start start name where
  kept := id
  done hc hn := .inr (h.2 _ _ hc hn)

theorem Settled.called (h : Settled start d name) {id : Nat} {c : Caller}
    (hc : d.caller? id = some c) (hn : c.name = name) (hr : c.progress.result? = none) :
    Called start d name id c := by
  refine ⟨(h.done hc hn).resolve_right fun hd => ?_, hc, hn⟩
  rw [hr] at hd; cases hd

theorem Settled.move (h : Settled start d name) (hm : Move d a notices d') :
    Settled start d' name := by
  cases hm with
  | stay => exact h
  | @enter id m hid =>
    refine ⟨fun {j} hj => ?_, fun {j c} hj hn => ?_⟩
    · rw [caller?_enter d hid] at hj
      split at hj
      · cases hj
      · exact h.kept hj
    · rw [caller?_enter d hid] at hj
      split at hj
      · rename_i hjd; exact .inl (h.kept (hjd ▸ hid))
      · exact h.done hj hn
  | @turn _ id c p cache channels hc ht =>
    refine ⟨fun {j} hj => ?_, fun {j e} hj hn => ?_⟩
    · rw [caller?_turned hc] at hj
      split at hj
      · cases hj
      · exact h.kept hj
    · rw [caller?_turned hc] at hj
      split at hj
      · rename_i hjd; cases hj
        exact .inl (hjd ▸ (h.called hc hn ht.unfinished).1)
      · exact h.done hj hn
  | drift | takeOut | close => exact ⟨h.kept, h.done⟩

/-- A step leaves a name aside: nobody who wants its channel goes on, though somebody may come. -/
structure Aside (start d d' : Desk ς) (notices : List Notice) (name : String) : Prop where
  found : d'.cache.find? name = d.cache.find? name
  stays : ∀ {id c}, Called start d name id c → Called start d' name id c
  comes : ∀ {id c}, Called start d' name id c → c.progress = .looking ∨ Called start d name id c
  elsewhere : ∀ n ∈ notices, n.name ≠ name

/-- A step leaves the name aside, or is a turn of one of the calls. -/
theorem Settled.move_cases (h : Settled start d name) (hm : Move d a notices d')
    (ha : a.spares name i) : Aside start d d' notices name ∨
      ∃ id c p cache channels, Called start d name id c ∧
        Turn d id name a c.progress p cache channels ∧ d' = d.turned id p cache channels ∧
        notices = c.progress.heard name p := by
  cases hm with
  | stay => exact .inl ⟨rfl, fun hc => hc, .inr, nofun⟩
  | @enter id m hid =>
    exact .inl ⟨rfl, Called.entered hid, Called.enter hid, nofun⟩
  | @turn _ id c p cache channels hc ht =>
    by_cases hn : c.name = name
    · subst hn
      exact .inr ⟨id, c, p, cache, channels, h.called hc rfl ht.unfinished, ht, rfl, rfl⟩
    · refine .inl ⟨ht.find?_other (Ne.symm hn), fun hj => hj.turned_other hc fun hjd => ?_,
        fun hj => ?_, fun n hh => Progress.name_of_heard hh ▸ hn⟩
      · have he := hj.2.1
        rw [hjd, hc] at he; cases he
        exact hn hj.2.2
      · rcases called_turned hc hj with ⟨-, -, hid⟩ | ⟨-, hj⟩
        · exact absurd hid.2.2 hn
        · exact .inr hj
  | drift | close => exact .inl ⟨rfl, fun hc => hc, .inr, nofun⟩
  | takeOut m =>
    exact .inl ⟨(Cache.find?_erase ..).trans (if_neg (Ne.symm ha)), fun hc => hc, .inr, nofun⟩

/-! ## Before the dial has ended -/

/-- No dial under the name has ended since the first call. -/
structure Before (start d : Desk ς) (log : List Notice) (name : String) : Prop where
  absent : d.cache.find? name = none
  early : ∀ {id c}, Called start d name id c → c.progress.isEarly = true
  unheard : ∀ {k}, .dead name k ∉ log
  alone : (log.count (.began name) = 0 ∧ ∀ {id c}, Called start d name id c →
      c.progress ≠ .dialing) ∨
    (log.count (.began name) = 1 ∧ ∃ id c, Called start d name id c ∧ c.progress = .dialing)

theorem Before.aside (h : Before start d log name) (ha : Aside start d d' notices name) :
    Before start d' (log ++ notices) name where
  absent := ha.found.trans h.absent
  early hc := (ha.comes hc).elim (fun hp => hp ▸ rfl) h.early
  unheard hk := (List.mem_append.1 hk).elim h.unheard fun hk => ha.elsewhere _ hk rfl
  alone := by
    have hcount : (log ++ notices).count (.began name) = log.count (.began name) := by
      rw [List.count_append, List.count_eq_zero.2 fun hb => ha.elsewhere _ hb rfl, Nat.add_zero]
    rw [hcount]
    refine h.alone.imp (fun ⟨h0, hd⟩ => ⟨h0, fun hc => ?_⟩)
      fun ⟨h1, id, c, hc, hp⟩ => ⟨h1, id, c, ha.stays hc, hp⟩
    rcases ha.comes hc with hp | hc
    · rw [hp]; nofun
    · exact hd hc

section Turn

variable {id : Nat} {c : Caller} {p : Progress} {cache : Cache} {channels : List (Channel ς)}

/-- Before the dial has ended a call finds nothing, queues, and dials when that is its right. -/
theorem Before.turn_cases (h : Before start d log name) (hc : Called start d name id c)
    (ht : Turn d id name a c.progress p cache channels) :
    (cache.find? name = none ∧ c.progress ≠ .dialing ∧ p.isEarly = true ∧ p ≠ .dialing ∧
      c.progress.heard name p = []) ∨
    (cache.find? name = none ∧ c.progress ≠ .dialing ∧ p = .dialing ∧
      d.cache.holds name id = true ∧ c.progress.heard name p = [.began name]) ∨
    (c.progress = .dialing ∧ ∃ k, p = .served k ∧ c.progress.heard name p = [.brought name k]) ∨
    (c.progress = .dialing ∧ ∃ f, p = .failed f ∧ c.progress.heard name p = [.failed name]) := by
  have hearly := h.early hc
  have habsent := h.absent
  generalize c.progress = q at *
  cases ht with
  | find hf => rw [habsent] at hf; cases hf
  | serve | condemn | evict => cases hearly
  | begin hv hh =>
    cases hv with
    | absent => exact .inr (.inl ⟨habsent, nofun, rfl, hh, rfl⟩)
    | replaced | closed => cases hearly
  | miss hv =>
    cases hv with
    | absent => exact .inl ⟨habsent, nofun, rfl, nofun, rfl⟩
    | replaced | closed => cases hearly
  | join | rise => exact .inl ⟨habsent, nofun, rfl, nofun, rfl⟩
  | bring => exact .inr (.inr (.inl ⟨rfl, _, rfl, rfl⟩))
  | fail => exact .inr (.inr (.inr ⟨rfl, _, rfl, rfl⟩))

theorem Before.turn (h : Before start d log name) (ho : Orderly d)
    (hc : Called start d name id c) (ht : Turn d id name a c.progress p cache channels)
    (hnone : (c.progress.heard name p).find? (·.ends name) = none) :
    Before start (d.turned id p cache channels) (log ++ c.progress.heard name p) name := by
  rcases h.turn_cases hc ht with ⟨hf, hq, hp, hpd, hh⟩ | ⟨hf, hq, rfl, hhold, hh⟩ |
    ⟨-, k, -, hh⟩ | ⟨-, f, -, hh⟩
  · rw [hh, List.append_nil]
    refine ⟨hf, forall_turned (P := (·.isEarly = true)) hc.2.1 hp h.early, h.unheard, ?_⟩
    refine h.alone.imp (fun ⟨h0, hd⟩ => ⟨h0, forall_turned (P := (· ≠ .dialing)) hc.2.1 hpd hd⟩) ?_
    exact fun ⟨h1, j, e, hj, he⟩ => ⟨h1, j, e, hc.turned_elsewhere hj (he ▸ hq), he⟩
  · rw [hh]
    refine ⟨hf, forall_turned (P := (·.isEarly = true)) hc.2.1 rfl h.early, fun hk => ?_, .inr ?_⟩
    · rcases List.mem_append.1 hk with hk | hk
      · exact h.unheard hk
      · cases List.mem_singleton.1 hk
    · rcases h.alone with ⟨h0, -⟩ | ⟨-, j, e, hj, he⟩
      · exact ⟨by rw [List.count_append, h0, List.count_singleton_self], id, _, hc.turned, rfl⟩
      -- who has the right to dial is the one who dials already, and so has no turn to take
      · have hje := hj.2.1
        rw [ho.dials_alone hhold hj he, hc.2.1] at hje
        cases hje
        exact absurd he hq
  · rw [hh, Notice.find?_brought] at hnone; cases hnone
  · rw [hh, Notice.find?_failed] at hnone; cases hnone

end Turn

/-! ## While the channel is cached -/

/-- The channel of the first dial is cached. Its number is known under this name alone, so nobody
closes it on behalf of another, and to close it somebody has to take it out first. -/
structure Held (start d : Desk ς) (log : List Notice) (name : String) (i : Nat) : Prop where
  cached : d.cache.find? name = some i
  near : ∀ {id c}, Called start d name id c → c.progress.isNear i = true
  once : log.count (.began name) = 1
  seen : .dead name i ∈ log ↔ ∃ id c, Called start d name id c ∧ c.progress = .evicting i
  owned : ∀ {m}, d.Knows m i → m = name
  isOpen : d.closed? i = some false

section Turn

variable {id : Nat} {c : Caller} {p : Progress} {cache : Cache} {channels : List (Channel ς)}

/-- The dial ends, and its channel is cached. -/
theorem Before.lands (h : Before start d log name) (ho : Orderly d) (hb : Bounded d)
    (hc : Called start d name id c) (ht : Turn d id name a c.progress p cache channels)
    (ha : a.spares name i)
    (hsome : (c.progress.heard name p).find? (·.ends name) = some (.brought name i)) :
    Held start (d.turned id p cache channels) (log ++ c.progress.heard name p) name i := by
  obtain ⟨hq, hp, hh⟩ : c.progress = .dialing ∧ p = .served i ∧
      c.progress.heard name p = [.brought name i] := by
    rcases h.turn_cases hc ht with ⟨-, -, -, -, hh⟩ | ⟨-, -, -, -, hh⟩ | ⟨hq, k, hp, hh⟩ |
      ⟨-, f, -, hh⟩
    · rw [hh] at hsome; cases hsome
    · rw [hh] at hsome; cases hsome
    · rw [hh, Notice.find?_brought] at hsome; cases hsome; exact ⟨hq, hp, hh⟩
    · rw [hh, Notice.find?_failed] at hsome; cases hsome
  have hm : Move d a (c.progress.heard c.name p) (d.turned id p cache channels) :=
    .turn hc.2.1 (hc.2.2.symm ▸ ht)
  rw [hc.2.2, hh] at hm
  rw [hh]
  rw [hq, hp] at ht
  obtain ⟨hi, hf, channel, rfl, rfl⟩ := ht.brought
  have hhold : d.cache.holds name id = true := hc.2.2 ▸ ho.dialing hc.2.1 hq
  have hfresh {m : String} (hk : d.Knows m i) : False := Nat.lt_irrefl _ (hi ▸ hb m i hk)
  refine ⟨hf, fun {j e} hj => ?_, ?_, ⟨fun hk => ?_, fun ⟨j, e, hj, he⟩ => ?_⟩, fun {m} hk => ?_, ?_⟩
  · rcases called_turned hc.2.1 hj with ⟨-, rfl, -⟩ | ⟨hjd, hj⟩
    · rw [hp]; exact beq_self_eq_true i
    · exact Progress.isNear_of_isEarly (h.early hj)
        (fun he => hjd (ho.dials_alone hhold hj he)) i
  · rw [List.count_append, h.alone.elim (fun ⟨_, hd⟩ => absurd hq (hd hc)) And.left]; rfl
  · rcases List.mem_append.1 hk with hk | hk
    · exact absurd hk h.unheard
    · cases List.mem_singleton.1 hk
  · rcases called_turned hc.2.1 hj with ⟨-, rfl, -⟩ | ⟨-, hj⟩
    · rw [hp] at he; cases he
    · have := h.early hj; rw [he] at this; cases this
  · rcases hm.knows hk with hk | ⟨-, -, hn⟩
    · exact (hfresh hk).elim
    · cases hn; rfl
  · change ((d.channels ++ [channel])[i]?).map _ = _
    rw [hi, List.getElem?_concat_length, Option.map_some]
    exact congrArg some ha

/-- While the channel is cached a call comes nearer to it, unless it has seen the channel dead. -/
theorem Held.turn_cases (h : Held start d log name i) (hc : Called start d name id c)
    (ht : Turn d id name a c.progress p cache channels) :
    (cache.find? name = some i ∧ p.isNear i = true ∧ c.progress ≠ .evicting i ∧ p ≠ .evicting i ∧
      p.left < c.progress.left ∧ c.progress.heard name p = []) ∨
    (cache.find? name = some i ∧ c.progress ≠ .evicting i ∧ p = .evicting i ∧
      p.left < c.progress.left ∧ c.progress.heard name p = [.dead name i]) ∨
    (c.progress = .evicting i ∧ p = .closing i ∧ c.progress.heard name p = []) := by
  have hnear := h.near hc
  have hcached := h.cached
  generalize c.progress = q at *
  cases ht with
  | find hf =>
    rw [hcached] at hf; cases hf
    exact .inl ⟨hcached, beq_self_eq_true i, nofun, nofun, Nat.lt_succ_self _, rfl⟩
  | serve => exact .inl ⟨hcached, hnear, nofun, nofun, Nat.zero_lt_one, rfl⟩
  | condemn =>
    cases beq_iff_eq.1 hnear
    exact .inr (.inl ⟨hcached, nofun, rfl, Nat.zero_lt_one, rfl⟩)
  | evict hf =>
    rw [hcached] at hf; cases hf
    exact .inr (.inr ⟨rfl, rfl, rfl⟩)
  | begin hv | miss hv =>
    cases hv with
    | absent hf => rw [hcached] at hf; cases hf
    | replaced hf => cases beq_iff_eq.1 hnear; exact absurd hcached hf
    | closed => cases hnear
  | join | rise => exact .inl ⟨hcached, rfl, nofun, nofun, Nat.lt_succ_self _, rfl⟩
  | bring | fail => cases hnear

end Turn

theorem Held.known (h : Held start d log name i) : d.Knows name i := .inl h.cached

/-- Nobody comes to know the channel under another name. -/
theorem Held.owned_move (h : Held start d log name i) (hb : Bounded d) (hm : Move d a notices d')
    {m : String} (hk : d'.Knows m i) : m = name := by
  rcases hm.knows hk with hk | ⟨hi, -⟩
  · exact h.owned hk
  · exact absurd (hb name i h.known) (hi ▸ Nat.lt_irrefl _)

theorem Held.isOpen_move (h : Held start d log name i) (hs : Settled start d name)
    (hm : Move d a notices d') (ha : a.spares name i) : d'.closed? i = some false := by
  rcases hm.closed?_cases h.isOpen with ho | ⟨-, rfl | ⟨id, c, hc, hp⟩⟩
  · exact ho
  · exact absurd rfl ha
  · have hn : c.name = name := h.owned (.inr ⟨id, c, hc, rfl, by rw [hp]; rfl⟩)
    have := h.near (hs.called hc hn (by rw [hp]; rfl))
    rw [hp] at this; cases this

/-- The channel has been taken out by somebody who saw it dead. -/
structure Gone (start d : Desk ς) (log : List Notice) (name : String) (i : Nat) : Prop where
  seen : .dead name i ∈ log
  closing : d.closed? i = some true ∨ ∃ id c, Called start d name id c ∧ c.progress = .closing i

theorem Held.move (h : Held start d log name i) (hb : Bounded d) (hs : Settled start d name)
    (hm : Move d a notices d') (ha : a.spares name i) :
    Held start d' (log ++ notices) name i ∨ Gone start d' (log ++ notices) name i := by
  have howned {m} (hk : d'.Knows m i) : m = name := h.owned_move hb hm hk
  have hopen : d'.closed? i = some false := h.isOpen_move hs hm ha
  rcases hs.move_cases hm ha with hside | ⟨id, c, p, cache, channels, hc, ht, rfl, rfl⟩
  · refine .inl ⟨hside.found.trans h.cached, fun hj => ?_, ?_, ?_, howned, hopen⟩
    · exact (hside.comes hj).elim (fun hp => hp ▸ rfl) h.near
    · rw [List.count_append, h.once, List.count_eq_zero.2 fun hb => hside.elsewhere _ hb rfl]
    · rw [List.mem_append, h.seen]
      refine ⟨fun hk => ?_, fun ⟨j, e, hj, he⟩ => .inl ⟨j, e, ?_, he⟩⟩
      · obtain ⟨j, e, hj, he⟩ := hk.resolve_right fun hk => hside.elsewhere _ hk rfl
        exact ⟨j, e, hside.stays hj, he⟩
      · exact (hside.comes hj).resolve_left fun hp => by rw [he] at hp; cases hp
  · have hnear (hp : p.isNear i = true) {j e}
        (hj : Called start (d.turned id p cache channels) name j e) : e.progress.isNear i = true :=
      forall_turned (P := (·.isNear i = true)) hc.2.1 hp h.near hj
    rcases h.turn_cases hc ht with ⟨hf, hp, hq, hpe, -, hh⟩ | ⟨hf, hq, rfl, -, hh⟩ | ⟨hq, rfl, hh⟩
    · rw [hh, List.append_nil]
      refine .inl ⟨hf, hnear hp, h.once, h.seen.trans ?_, howned, hopen⟩
      refine ⟨fun ⟨j, e, hj, he⟩ => ⟨j, e, hc.turned_elsewhere hj (he ▸ hq), he⟩, ?_⟩
      rintro ⟨j, e, hj, he⟩
      rcases called_turned hc.2.1 hj with ⟨-, rfl, -⟩ | ⟨-, hj⟩
      · exact absurd he hpe
      · exact ⟨j, e, hj, he⟩
    · rw [hh]
      refine .inl ⟨hf, hnear (beq_self_eq_true i), ?_, ?_, howned, hopen⟩
      · rw [List.count_append, h.once]; rfl
      · exact iff_of_true (List.mem_append_right _ (List.mem_singleton_self _))
          ⟨id, _, hc.turned, rfl⟩
    · rw [hh, List.append_nil]
      exact .inr ⟨h.seen.2 ⟨id, c, hc, hq⟩, .inr ⟨id, _, hc.turned, rfl⟩⟩

theorem Gone.move (h : Gone start d log name i) (hb : Bounded d) (hs : Settled start d name)
    (hm : Move d a notices d') (ha : a.spares name i) :
    Gone start d' (log ++ notices) name i := by
  refine ⟨List.mem_append_left _ h.seen, ?_⟩
  rcases h.closing with hcl | ⟨j, e, hj, he⟩
  · exact .inl ((hm.closed?_cases hcl).elim (fun h => h) And.left)
  · rcases hs.move_cases hm ha with hside | ⟨id, c, p, cache, channels, hc, ht, rfl, rfl⟩
    · exact .inr ⟨j, e, hside.stays hj, he⟩
    · by_cases hq : c.progress = .closing i
      · obtain ⟨b, hi⟩ := hb.closed?_isSome (.inr ⟨id, c, hc.2.1, hc.2.2, by rw [hq]; rfl⟩)
        rw [hq] at ht
        obtain rfl := ht.closes
        exact .inl ((closed?_close hi).trans (by rw [if_pos rfl]))
      · exact .inr ⟨j, e, hc.turned_elsewhere hj (he ▸ hq), he⟩

/-! ## The whole flight -/

/-- How far the first dial under a name is, and what holds of every name at all times. -/
structure Flight (start : Desk ς) (name : String) (i : Nat) (d : Desk ς) (log : List Notice) :
    Prop where
  orderly : Orderly d
  bounded : Bounded d
  settled : Settled start d name
  before : log.find? (·.ends name) = none → Before start d log name
  after : log.find? (·.ends name) = some (.brought name i) →
    Held start d log name i ∨ Gone start d log name i

theorem Flight.move (h : Flight start name i d log) (hm : Move d a notices d')
    (ha : a.spares name i) : Flight start name i d' (log ++ notices) where
  orderly := h.orderly.move hm
  bounded := h.bounded.move hm
  settled := h.settled.move hm
  before hnone := by
    rw [List.find?_append, Option.or_eq_none_iff] at hnone
    rcases h.settled.move_cases hm ha with hside | ⟨id, c, p, cache, channels, hc, ht, rfl, rfl⟩
    · exact (h.before hnone.1).aside hside
    · exact (h.before hnone.1).turn h.orderly hc ht hnone.2
  after hsome := by
    rw [List.find?_append] at hsome
    cases hlog : log.find? (·.ends name) with
    | some n =>
      rw [hlog, Option.some_or] at hsome
      rcases h.after (hlog.trans hsome) with hheld | hgone
      · exact hheld.move h.bounded h.settled hm ha
      · exact .inr (hgone.move h.bounded h.settled hm ha)
    | none =>
      rw [hlog, Option.none_or] at hsome
      rcases h.settled.move_cases hm ha with hside | ⟨id, c, p, cache, channels, hc, ht, rfl, rfl⟩
      · exact absurd rfl (hside.elsewhere _ (List.mem_of_find?_eq_some hsome))
      · exact .inl ((h.before hlog).lands h.orderly h.bounded hc ht ha hsome)

theorem flight_run {earlier acts : List (Act ς)} (cold : (({} : Desk ς).run earlier).IsCold name)
    (spared : ∀ a ∈ acts, a.spares name i) :
    Flight (({} : Desk ς).run earlier) name i ((({} : Desk ς).run earlier).run acts)
      ((({} : Desk ς).run earlier).history acts) := by
  refine run_invariant (P := Flight _ name i) (fun ha hm h => h.move hm ha) _ ?_ acts spared
  have nobody {id c} (hc : Called (({} : Desk ς).run earlier) (({} : Desk ς).run earlier) name id c) :
      False := by
    have := hc.1; rw [hc.2.1] at this; cases this
  exact {
    orderly := orderly_run earlier
    bounded := bounded_run earlier
    settled := cold.settled
    before := fun _ => {
      absent := cold.1
      early := fun hc => (nobody hc).elim
      unheard := nofun
      alone := .inl ⟨rfl, fun hc => (nobody hc).elim⟩ }
    after := nofun }

/-- A call that has not seen the channel dead has got it, or comes nearer to it by each step. -/
theorem Held.nearer (h : Held start d log name i) (hseen : .dead name i ∉ log) {id : Nat}
    {c : Caller} (hc : Called start d name id c) : c.progress.result? = some (.ok i) ∨
      (c.progress.result? = none ∧ ∀ d', d.step id = some d' →
        ∃ c', d'.caller? id = some c' ∧ c'.progress.left < c.progress.left) := by
  cases hr : c.progress.result? with
  | some r =>
    have hnear := h.near hc
    generalize c.progress = q at *
    cases q with
    | served k => cases hr; rw [beq_iff_eq.1 hnear]; exact .inl rfl
    | failed f => cases hnear
    | looking | seeing | evicting | closing | joining | queued | dialing => cases hr
  | none =>
    refine .inr ⟨rfl, fun d' hs => ?_⟩
    obtain ⟨c', p, cache, channels, hc', ht, rfl⟩ := step_turn hs
    rw [hc.2.1] at hc'; cases hc'
    refine ⟨{ c with progress := p }, hc.turned.2.1, ?_⟩
    rw [hc.2.2] at ht
    rcases h.turn_cases hc ht with ⟨-, -, -, -, hl, -⟩ | ⟨-, -, -, hl, -⟩ | ⟨hq, -⟩
    · exact hl
    · exact hl
    · exact absurd (h.seen.2 ⟨id, c, hc, hq⟩) hseen

/-- When no call can go on and none has seen the channel dead, all of them have got it. -/
theorem Flight.shared (h : Flight start name i d log) (hheld : Held start d log name i)
    (hseen : .dead name i ∉ log) (hrest : ∀ id c, Called start d name id c → d.step id = none) :
    Shared start d log name i where
  once := hheld.once
  isOpen := hheld.isOpen
  got {id c} hc := by
    have hdone := h.orderly.all_done (fun j e he hn hr => ?_) hc.2.1 hc.2.2
    · refine (hheld.nearer hseen hc).resolve_right fun ⟨hr, _⟩ => ?_
      rw [hr] at hdone; cases hdone
    · have hj := h.settled.called he hn hr
      refine ⟨hrest j e hj, fun hd => ?_⟩
      have := hheld.near hj
      rw [hd] at this; cases this

/-- When no call can go on and one has seen the channel dead, the channel is closed. -/
theorem Flight.closed (h : Flight start name i d log)
    (hfirst : log.find? (·.ends name) = some (.brought name i)) (hseen : .dead name i ∈ log)
    (hrest : ∀ id c, Called start d name id c → d.step id = none) : d.closed? i = some true := by
  have stuck {id c} (hc : Called start d name id c) (hp : c.progress = .evicting i ∨
      c.progress = .closing i) : False := by
    rcases step_none hc.2.1 (hrest id c hc) with hq | hq | ⟨hq, -⟩ <;>
      rcases hp with hp | hp <;> rw [hp] at hq <;> cases hq
  rcases h.after hfirst with hheld | hgone
  · obtain ⟨id, c, hc, hp⟩ := hheld.seen.1 hseen
    exact (stuck hc (.inl hp)).elim
  · refine hgone.closing.resolve_right fun ⟨id, c, hc, hp⟩ => stuck hc (.inr hp)

/-- When none of the callers of a desk can go on, no call can. -/
theorem rest_of_callers (h : ∀ x ∈ d.callers, d.step x.1 = none) {id : Nat} {c : Caller}
    (hc : Called start d name id c) : d.step id = none := by
  obtain ⟨before, after, hcallers, -⟩ := List.lookup_eq_some_iff.1 hc.2.1
  exact h (id, c) (hcallers ▸ List.mem_append_right _ (List.mem_cons_self ..))

/-- Single flight. Calls come for the channel of a cold name, in any number and at any time, and the
first dial that ends brings a channel, which nobody but the calls themselves takes out or closes. As
long as no call sees that channel in a state in which it may not be used, it is the only one that has
been dialed and is open; whoever is done has got it, and every other call comes nearer to it by each
of its steps. When no call can go on any more, then one dial has served all of them exactly if none
has seen the channel dead: whoever does takes it out and closes it. -/
theorem single_flight_iff (earlier acts : List (Act ς)) {name : String} {i : Nat}
    (cold : (({} : Desk ς).run earlier).IsCold name)
    (spared : ∀ a ∈ acts, a.spares name i)
    (first : ((({} : Desk ς).run earlier).history acts).find? (·.ends name) =
      some (.brought name i)) :
    let start := ({} : Desk ς).run earlier
    let d := start.run acts
    let log := start.history acts
    (.dead name i ∉ log → log.count (.began name) = 1 ∧ d.closed? i = some false ∧
      ∀ id c, Called start d name id c → c.progress.result? = some (.ok i) ∨
        (c.progress.result? = none ∧ ∀ d', d.step id = some d' →
          ∃ c', d'.caller? id = some c' ∧ c'.progress.left < c.progress.left)) ∧
    ((∀ id c, Called start d name id c → d.step id = none) →
      (Shared start d log name i ↔ .dead name i ∉ log)) := by
  intro start d log
  have h : Flight start name i d log := flight_run cold spared
  have held (hseen : .dead name i ∉ log) : Held start d log name i :=
    (h.after first).resolve_right fun hgone => hseen hgone.seen
  refine ⟨fun hseen => ⟨(held hseen).once, (held hseen).isOpen, fun id c hc =>
    (held hseen).nearer hseen hc⟩, fun hrest => ⟨fun hshared hseen => ?_, fun hseen =>
      h.shared (held hseen) hseen hrest⟩⟩
  have := h.closed first hseen hrest
  rw [hshared.isOpen] at this; cases this

/-- A channel to one instance, whose connection is in a state. -/
def toInstance (state : Channel.State) : Channel Unit where
  target := .ofService "test" "orders"
  created := [{ addr := "10.0.0.5:9001", state }]
  members := [("10.0.0.5:9001", 0)]

/-- Two calls come together. One dials, and the other looks at what it has got and goes on. -/
def together (channel : Channel Unit) : List (Act Unit) :=
  [.enter 0 "orders", .enter 1 "orders", .go 0, .go 1, .go 0, .go 1, .go 0, .go 0,
   .answer 0 (.ok channel), .go 1, .go 1, .go 1, .go 1, .go 1, .answer 1 (.ok channel)]

/-- An idle channel serves both calls. One that has failed is dead to the second, which closes it in
the hand of the first and dials again. -/
theorem dead_dialed_again :
    let idle := together (toInstance .idle)
    let failed := together (toInstance .transientFailure)
    Shared ({} : Desk Unit) (({} : Desk Unit).run idle) (({} : Desk Unit).history idle) "orders" 0 ∧
    ¬ Shared ({} : Desk Unit) (({} : Desk Unit).run failed) (({} : Desk Unit).history failed)
      "orders" 0 ∧
    (({} : Desk Unit).history failed).count (.began "orders") = 2 ∧
    (({} : Desk Unit).run failed).closed? 0 = some true := by
  intro idle failed
  have flight (state : Channel.State)
      (first : (({} : Desk Unit).history (together (toInstance state))).find? (·.ends "orders") =
        some (.brought "orders" 0))
      (hrest : ∀ x ∈ (({} : Desk Unit).run (together (toInstance state))).callers,
        (({} : Desk Unit).run (together (toInstance state))).step x.1 = none) :=
    (single_flight_iff [] (together (toInstance state)) ⟨rfl, nofun⟩
      (by simp [together, Act.spares, toInstance]) first).2
      fun _ _ hc => rest_of_callers hrest hc
  refine ⟨(flight .idle ?_ ?_).2 ?_, fun h => (flight .transientFailure ?_ ?_).1 h ?_, ?_, ?_⟩
  all_goals decide +kernel

end Desk
end Muster.Client
