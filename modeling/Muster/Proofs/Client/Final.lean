/-
Closing an application context for good. Whoever removes the channels of all names that are cached leaves
none of them cached (`Clearing`); and since a channel that is neither cached nor in a hand is closed, all
that were dialed before are closed in the end. Only a dial that had begun before the signal fired can still
bring another one, behind whoever closes.
-/
import Muster.Client.Context
import Muster.Client.House
import Muster.Proofs.Client.Custody

namespace Muster.Client

variable {ς : Type}

/-- There are as many channels after a turn as before, unless a dial has brought one, which is cached
then. -/
theorem Desk.Turn.grows {d : Desk ς} {id : Nat} {name : String} {a : Act ς} {p p' : Progress}
    {cache : Cache} {channels : List (Channel ς)} (h : Turn d id name a p p' cache channels) :
    channels.length = d.channels.length ∨
      (∃ channel, p = .dialing ∧ a = .answer id (.ok channel)) ∧
        channels.length = d.channels.length + 1 ∧ cache.find? name = some d.channels.length := by
  cases h with
  | bring channel =>
    refine .inr ⟨⟨channel, rfl, rfl⟩, by simp, ?_⟩
    rw [Cache.find?_leave, Cache.find?_insert, if_pos rfl]
  | begin hv | miss hv =>
    cases hv with
    | absent | replaced => exact .inl rfl
    | closed => exact .inl (by simp)
  | find | serve | condemn | evict | join | rise | fail => exact .inl rfl

namespace Floor

variable {f f' : Floor ς} {a : Act ς}

/-! ## Accounts -/

/-- Every channel is cached under some name, or closed, or somebody has it in hand. -/
def Complete (f : Floor ς) : Prop := ∀ i < f.desk.channels.length, ∃ name, f.Accounted name i

theorem Move.grows (hm : Move f a f') : f'.desk.channels.length = f.desk.channels.length ∨
    ∃ id channel c, a = .answer id (.ok channel) ∧ f.desk.caller? id = some c ∧
      c.progress = .dialing ∧ f'.desk.channels.length = f.desk.channels.length + 1 ∧
      f'.desk.cache.find? c.name = some f.desk.channels.length := by
  cases hm with
  | stay | clear | takeOut => exact .inl rfl
  | close => exact .inl (by simp [setRemover, Desk.closeChannel])
  | desk ha hm =>
    cases hm with
    | stay | enter | takeOut => exact .inl rfl
    | drift | close => exact .inl (by simp [Desk.closeChannel])
    | @turn _ id c p cache channels hc ht =>
      refine ht.grows.imp_right ?_
      rintro ⟨⟨channel, hp, rfl⟩, hlength, hcached⟩
      cases a with
      | answer => cases ha; exact ⟨id, channel, c, rfl, hc, hp, hlength, hcached⟩
      | _ => cases ha

/-- Who has got a result keeps it. -/
theorem Move.result?_kept (hm : Move f a f') {id : Nat} {x : Except Fault Nat}
    (hx : f.desk.result? id = some x) : f'.desk.result? id = some x := by
  obtain ⟨c, hc, hresult⟩ := Option.bind_eq_some_iff.1 hx
  refine Option.bind_eq_some_iff.2 ⟨c, ?_, hresult⟩
  cases hm with
  | stay | clear | takeOut | close => exact hc
  | desk _ hm =>
    cases hm with
    | stay | drift | close | takeOut => exact hc
    | enter hj =>
      refine (Desk.caller?_enter _ hj id).trans ((if_neg ?_).trans hc)
      rintro rfl
      rw [hc] at hj
      cases hj
    | @turn _ j e p cache channels he ht =>
      refine (Desk.caller?_turned he p cache channels id).trans ((if_neg ?_).trans hc)
      rintro rfl
      rw [hc] at he
      cases he
      rw [ht.unfinished] at hresult
      cases hresult

theorem Complete.move (h : Complete f) (hk : Kept f) (hm : Move f a f') : Complete f' := by
  intro i hi
  have hold (hi : i < f.desk.channels.length) : ∃ name, f'.Accounted name i := by
    obtain ⟨name, haccounted⟩ := h i hi
    exact ⟨name, hk.accounted_move hm haccounted⟩
  rcases hm.grows with hlength | ⟨_, _, c, -, -, -, hlength, hcached⟩
  · exact hold (hlength ▸ hi)
  · by_cases hlast : i = f.desk.channels.length
    · exact ⟨c.name, .inl (hlast ▸ hcached)⟩
    · exact hold (by omega)

/-- Everybody is done. -/
structure AtRest (f : Floor ς) : Prop where
  callers : ∀ e ∈ f.desk.callers, e.2.progress.result?.isSome = true
  removers : ∀ e ∈ f.removers, e.2 = { names := [] }

/-- At rest nobody has a channel in hand. -/
theorem AtRest.cached_or_closed (h : AtRest f) (hc : Complete f) {i : Nat}
    (hi : i < f.desk.channels.length) :
    (∃ name, f.desk.cache.find? name = some i) ∨ f.desk.closed? i = some true := by
  obtain ⟨name, hcached | hclosed | ⟨t, ht⟩⟩ := hc i hi
  · exact .inl ⟨name, hcached⟩
  · exact .inr hclosed
  · cases t with
    | caller id =>
      obtain ⟨c, hcaller, hp⟩ := ht
      have hdone := h.callers _ (mem_of_lookup hcaller)
      rw [hp] at hdone
      cases hdone
    | remover id =>
      obtain ⟨r, hr, hhand⟩ := ht
      rw [show r = { names := [] } from h.removers _ (mem_of_lookup hr)] at hhand
      cases hhand

/-! ## Clearing -/

/-- What is cached under a name was cached there before, unless it is new. -/
theorem Move.cached_before (hm : Move f a f') {name : String} {i : Nat}
    (hi : i < f.desk.channels.length) (hcached : f'.desk.cache.find? name = some i) :
    f.desk.cache.find? name = some i := by
  cases hm.placed with
  | same hold => exact hold (q := .cached name) hcached
  | cached m _ hold =>
    rcases hold (q := .cached name) hcached with h | ⟨rfl, -⟩
    · exact h
    · exact absurd hi (Nat.lt_irrefl _)
  | taken m t _ hold =>
    rcases hold (q := .cached name) hcached with h | ⟨-, h⟩
    · exact h
    · cases h

/-- A remover has still to go through every name that one of the first `n` channels is cached
under. -/
def Clearing (id n : Nat) (f : Floor ς) : Prop :=
  ∃ r, f.remover? id = some r ∧
    ∀ {name i}, i < n → f.desk.cache.find? name = some i → name ∈ r.names

theorem Clearing.move {id n : Nat} (h : Clearing id n f) (hn : n ≤ f.desk.channels.length)
    (hm : Move f a f') : Clearing id n f' := by
  obtain ⟨r, hr, hnames⟩ := h
  have hstill {name : String} {i : Nat} (hi : i < n) (hcached : f'.desk.cache.find? name = some i) :
      name ∈ r.names := hnames hi (hm.cached_before (Nat.lt_of_lt_of_le hi hn) hcached)
  cases hm with
  | stay | desk => exact ⟨r, hr, hstill⟩
  | @clear j names hj =>
    refine ⟨r, (remover?_clear hj names id).trans ((if_neg ?_).trans hr), hstill⟩
    rintro rfl
    rw [hr] at hj
    cases hj
  | @close j i names hj =>
    by_cases hid : id = j
    · subst hid
      rw [hr] at hj
      cases hj
      exact ⟨{ names }, (remover?_setRemover hr _ _ id).trans (if_pos rfl), hstill⟩
    · exact ⟨r, (remover?_setRemover hj _ _ id).trans ((if_neg hid).trans hr), hstill⟩
  | @takeOut j m names hj =>
    by_cases hid : id = j
    · subst hid
      rw [hr] at hj
      cases hj
      refine ⟨_, (remover?_setRemover hr _ _ id).trans (if_pos rfl), fun {name i} hi hcached => ?_⟩
      -- the name that has just been gone through holds nothing
      refine (List.mem_cons.1 (hstill hi hcached)).resolve_left ?_
      rintro rfl
      have hnone : (f.desk.cache.erase name).find? name = some i := hcached
      rw [Cache.find?_erase, if_pos rfl] at hnone
      cases hnone
    · exact ⟨r, (remover?_setRemover hj _ _ id).trans ((if_neg hid).trans hr), hstill⟩

/-- The desk is in order, and all channels are accounted for. -/
def Sound (f : Floor ς) : Prop := Kept f ∧ Complete f

theorem Sound.move (h : Sound f) (hm : Move f a f') : Sound f' :=
  ⟨h.1.move hm, h.2.move h.1 hm⟩

theorem sound_empty : Sound ({} : Floor ς) := ⟨kept_empty, fun _ hi => absurd hi (Nat.not_lt_zero _)⟩

/-- When everybody is done, one of the channels that a remover has gone through all names of is
closed. -/
theorem AtRest.closed_of_clearing (h : AtRest f) (hs : Sound f) {id n i : Nat}
    (hclear : Clearing id n f) (hi : i < n) (hn : n ≤ f.desk.channels.length) :
    f.desk.closed? i = some true := by
  refine (h.cached_or_closed hs.2 (Nat.lt_of_lt_of_le hi hn)).resolve_left ?_
  rintro ⟨name, hcached⟩
  obtain ⟨r, hr, hnames⟩ := hclear
  have hname := hnames hi hcached
  rw [show r = { names := [] } from h.removers _ (mem_of_lookup hr)] at hname
  cases hname

end Floor

namespace House

variable {h : House ς}

/-! ## Steps -/

theorem act_floor (h : House ς) (a : Act ς) : h.onFloor? a = none ∧ (h.act a).floor = h.floor ∨
    ∃ b, h.onFloor? a = some b ∧ Floor.Move h.floor b (h.act a).floor := by
  unfold act
  cases hb : h.onFloor? a with
  | none => exact .inl ⟨rfl, rfl⟩
  | some b => exact .inr ⟨b, rfl, Floor.step_move h.floor b⟩

/-- What every step on the floor keeps, a run keeps. -/
theorem run_floor {P : Floor ς → Prop} (hmove : ∀ {f b f'}, Floor.Move f b f' → P f → P f')
    (acts : List (Act ς)) : ∀ {h : House ς}, P h.floor → P (h.run acts).floor := by
  induction acts with
  | nil => exact fun hP => hP
  | cons a acts ih =>
    intro h hP
    refine ih (h := h.act a) ?_
    rcases act_floor h a with ⟨-, hsame⟩ | ⟨b, -, hm⟩
    · rw [hsame]
      exact hP
    · exact hmove hm hP

/-! ## After the signal -/

theorem begun_of_brought {a : Act ς} {id : Nat} {channel : Channel ς}
    (hb : h.onFloor? a = some (.answer id (.ok channel))) : id ∈ h.begun := by
  cases a with
  | bring j c =>
    simp only [onFloor?] at hb
    split at hb
    · rename_i hj
      cases hb
      exact List.contains_iff_mem.1 hj
    · cases hb
  | begin | gather =>
    simp only [onFloor?] at hb
    split at hb <;> cases hb
  | enter | go | fail | drift | close | remove | trigger | proceed => cases hb

/-- The signal has fired, and every dial that had begun is over. -/
structure Quiet (n : Nat) (h : House ς) : Prop where
  shut : h.shut = true
  ended : ∀ id ∈ h.begun, (h.desk.result? id).isSome = true
  channels : h.desk.channels.length = n

theorem Quiet.act {n : Nat} (hq : Quiet n h) (a : Act ς) : Quiet n (h.act a) := by
  have hbegun : (h.act a).begun = h.begun := by
    cases a <;> simp [House.act, hq.shut]
  rcases act_floor h a with ⟨-, hsame⟩ | ⟨b, hb, hm⟩
  · refine ⟨?_, fun id hid => ?_, ?_⟩
    · cases a <;> simp [House.act, hq.shut]
    · rw [desk, hsame]
      exact hq.ended id (hbegun ▸ hid)
    · rw [desk, hsame]
      exact hq.channels
  · refine ⟨?_, fun id hid => ?_, ?_⟩
    · cases a <;> simp [House.act, hq.shut]
    · obtain ⟨x, hx⟩ := Option.isSome_iff_exists.1 (hq.ended id (hbegun ▸ hid))
      exact Option.isSome_iff_exists.2 ⟨x, hm.result?_kept hx⟩
    · rcases hm.grows with hlength | ⟨id, channel, c, rfl, hc, hp, -⟩
      · exact hlength.trans hq.channels
      · -- only a dial that has begun brings a channel, and it is over
        have hended := hq.ended id (begun_of_brought hb)
        rw [desk, Desk.result?, show h.floor.desk.caller? id = some c from hc, Option.bind_some,
          hp] at hended
        cases hended

/-! ## The end -/

/-- No channel is left open that anybody could get or has got. -/
def IsFinal (h : House ς) : Prop :=
  (∀ {name i}, h.desk.cache.find? name = some i → h.desk.closed? i = some true) ∧
    ∀ {id i}, h.desk.result? id = some (.ok i) → h.desk.closed? i = some true

theorem Quiet.run {n : Nat} (acts : List (Act ς)) : ∀ {h : House ς}, Quiet n h → Quiet n (h.run acts) := by
  induction acts with
  | nil => exact id
  | cons a acts ih => exact fun hq => ih (hq.act a)

theorem sound_run (acts : List (Act ς)) : Floor.Sound (({} : House ς).run acts).floor :=
  run_floor (fun hm hs => hs.move hm) acts Floor.sound_empty

/-- Whoever looks at the names has to go through all that are cached. -/
theorem clearing_gather {id : Nat} (hshut : h.shut = true) (hnew : h.floor.remover? id = none) (n : Nat) :
    Floor.Clearing id n (h.act (.gather id)).floor ∧
      (h.act (.gather id)).floor.desk = h.floor.desk := by
  have hfloor : (h.act (.gather id)).floor = { h.floor with
      removers := h.floor.removers ++ [(id, { names := h.desk.cache.entries.map (·.1) })] } := by
    simp only [act, onFloor?, hshut, if_true, Floor.act, hnew, Option.isSome_none,
      Bool.false_eq_true, if_false]
  rw [hfloor]
  refine ⟨⟨_, (Floor.remover?_clear hnew _ id).trans (if_pos rfl), fun {name i} _ hcached => ?_⟩, rfl⟩
  exact List.mem_map_of_mem (f := Prod.fst) (mem_of_lookup hcached)

/-- When somebody has closed for good and everybody is done, no open channel is left exactly if those
have been closed that dials have brought since the names were looked at; and there are none if every
dial was over by then that had begun before the signal fired. -/
theorem final_iff {before after : List (Act ς)} {id : Nat} :
    let h := ({} : House ς).run before
    let h' := (h.act (.gather id)).run after
    h.shut = true → h.floor.remover? id = none → h'.floor.AtRest →
      (h'.IsFinal ↔ ∀ i, h.desk.channels.length ≤ i → i < h'.desk.channels.length →
        h'.desk.closed? i = some true) ∧
      ((∀ j ∈ h.begun, (h.desk.result? j).isSome = true) →
        h'.desk.channels.length = h.desk.channels.length) := by
  intro h h' hshut hnew hrest
  have hs : Floor.Sound h'.floor := by
    have hrun : h' = ({} : House ς).run (before ++ .gather id :: after) := by
      rw [run, List.foldl_append]
      rfl
    rw [hrun]
    exact sound_run _
  obtain ⟨hclear, hdesk⟩ := clearing_gather hshut hnew h.desk.channels.length
  -- whoever has looked at the names goes through all of those that were cached then
  have hlater : h.desk.channels.length ≤ h'.desk.channels.length ∧
      Floor.Clearing id h.desk.channels.length h'.floor := by
    refine run_floor (P := fun f => h.desk.channels.length ≤ f.desk.channels.length ∧
      Floor.Clearing id h.desk.channels.length f) (fun hm hP => ?_) after ⟨?_, hclear⟩
    · exact ⟨Nat.le_trans hP.1 hm.channels_le, hP.2.move hP.1 hm⟩
    · rw [hdesk]
      exact Nat.le_refl _
  have hearly {i : Nat} (hi : i < h.desk.channels.length) : h'.desk.closed? i = some true :=
    hrest.closed_of_clearing hs hlater.2 hi hlater.1
  have hquiet (hended : ∀ j ∈ h.begun, (h.desk.result? j).isSome = true) :
      Quiet h.desk.channels.length h' :=
    (Quiet.act ⟨hshut, hended, rfl⟩ _).run after
  refine ⟨⟨fun hfinal i _ hi => ?_, fun hlate => ?_⟩, fun hended => (hquiet hended).channels⟩
  · rcases hrest.cached_or_closed hs.2 hi with ⟨name, hcached⟩ | hclosed
    · exact hfinal.1 hcached
    · exact hclosed
  · have hall {name : String} {i : Nat} (hknown : h'.desk.Knows name i) :
        h'.desk.closed? i = some true := by
      rcases Nat.lt_or_ge i h.desk.channels.length with hi | hi
      · exact hearly hi
      · exact hlate i hi (hs.1.bounded name i hknown)
    refine ⟨fun hcached => hall (.inl hcached), fun {j i} hresult => ?_⟩
    obtain ⟨c, hc, hserved⟩ := Option.bind_eq_some_iff.1 hresult
    have hchannel : c.progress.channel? = some i := by
      cases hp : c.progress <;> rw [hp] at hserved <;> cases hserved
      rfl
    exact hall (.inr ⟨j, c, hc, rfl, hchannel⟩)

theorem run_proceed (id n : Nat) (h : House ς) : (h.run (List.replicate n (.proceed id))).floor =
    h.floor.run (List.replicate n (.proceed id)) ∧
      (h.run (List.replicate n (.proceed id))).shut = h.shut := by
  induction n generalizing h with
  | zero => exact ⟨rfl, rfl⟩
  | succ n ih => exact ih (h.act (.proceed id))

/-- Whoever closes for good, and nobody comes between, leaves the cache as closing a context does. -/
theorem close_alone (c : Context ς) {id : Nat} (hdesk : h.desk = c.desk)
    (hnew : h.floor.remover? id = none) : ∃ n,
    let h' := h.run (.trigger :: .gather id :: List.replicate n (.proceed id))
    h'.desk = c.close.desk ∧ h'.shut = c.close.shut := by
  obtain ⟨n, hn⟩ := Floor.clear_closeAll hnew
  obtain ⟨hfloor, hshut⟩ := run_proceed id n ((h.act .trigger).act (.gather id))
  refine ⟨n, ?_, hshut⟩
  show (House.run ((h.act .trigger).act (.gather id)) _).floor.desk = c.desk.closeAll
  rw [hfloor, ← hdesk]
  exact hn

/-- A dial has begun when somebody closes for good, finds nothing cached, and is done. Then its first
resolution comes, and it ends with that: everybody is done, and an open channel is cached. -/
theorem open_after_close :
    let h := ({} : House Unit).run
      [.enter 0 "orders", .go 0, .go 0, .go 0, .go 0, .begin 0, .trigger, .gather 1,
        .bring 0 { target := .ofService "test" "orders" }]
    h.shut = true ∧ h.floor.AtRest ∧ h.desk.cache.find? "orders" = some 0 ∧
      h.desk.result? 0 = some (.ok 0) ∧ h.desk.closed? 0 = some false := by
  intro h
  refine ⟨rfl, ⟨?_, ?_⟩, ?_, ?_, ?_⟩
  all_goals decide +kernel

end House
end Muster.Client
