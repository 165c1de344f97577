/-
Where a channel is that was dialed for the connection cache. It is cached under its name, or closed, or in
the hand of one who has taken it out and closes it next; nothing else can happen to it, whoever comes in
between. A step puts the next channel into the cache, or takes one out into one hand, or moves none
(`Placed`).
-/
import Mathlib.Data.List.Induction
import Muster.Proofs.Client.Removing
import Muster.Proofs.Client.Rights

namespace Muster.Client

variable {ς : Type}

namespace Floor

open Desk (Orderly Bounded Guarded)

variable {f f' : Floor ς} {a : Act ς}

/-! ## Places -/

/-- Who takes a channel out of the cache: a caller that has seen it dead, or a remover. -/
inductive Taker where
  | caller (id : Nat)
  | remover (id : Nat)
deriving DecidableEq, Repr

/-- The step that a taker takes next. -/
def Taker.next : Taker → Act ς
  | caller id => .go id
  | remover id => .proceed id

/-- Has taken a channel out, and is about to close it. -/
def Has (f : Floor ς) (i : Nat) : Taker → Prop
  | .caller id => ∃ c, f.desk.caller? id = some c ∧ c.progress = .closing i
  | .remover id => ∃ r, f.remover? id = some r ∧ r.hand = some i

/-- Where a channel can be that is not closed. -/
inductive Place where
  | cached (name : String)
  | hand (t : Taker)
deriving DecidableEq, Repr

def At (f : Floor ς) (i : Nat) : Place → Prop
  | .cached name => f.desk.cache.find? name = some i
  | .hand t => f.Has i t

/-- What a step does to the places: it moves no channel, it caches the next one, or it takes what is
cached under a name out into one hand. -/
inductive Placed (f f' : Floor ς) : Prop
  | same : (∀ {i q}, f'.At i q → f.At i q) → Placed f f'
  | cached (name : String) : f.desk.channels.length < f'.desk.channels.length →
      (∀ {i q}, f'.At i q → f.At i q ∨ (i = f.desk.channels.length ∧ q = .cached name)) →
      Placed f f'
  | taken (name : String) (t : Taker) : f'.desk.cache.find? name = none →
      (∀ {i q}, f'.At i q → f.At i q ∨ (f.At i (.cached name) ∧ q = .hand t)) → Placed f f'

/-- No channel comes into the cache, and none into a hand. -/
theorem Placed.of_kept
    (hcache : ∀ {m i}, f'.desk.cache.find? m = some i → f.desk.cache.find? m = some i)
    (hhas : ∀ {i t}, f'.Has i t → f.Has i t) : Placed f f' := by
  refine .same fun {i q} hq => ?_
  cases q with
  | cached m => exact hcache hq
  | hand t => exact hhas hq

/-- An entry is erased, and at most its channel comes into a hand. -/
theorem Placed.of_erased {name : String} {t : Taker}
    (hcache : f'.desk.cache = f.desk.cache.erase name)
    (hhas : ∀ {i u}, f'.Has i u → f.Has i u ∨ (u = t ∧ f.desk.cache.find? name = some i)) :
    Placed f f' := by
  refine .taken name t ?_ fun {i q} hq => ?_
  · rw [hcache, Cache.find?_erase, if_pos rfl]
  · cases q with
    | cached m =>
      have hm : f'.desk.cache.find? m = some i := hq
      rw [hcache, Cache.find?_erase] at hm
      split at hm
      · cases hm
      · exact .inl hm
    | hand u => exact (hhas hq).imp_right fun ⟨hu, hi⟩ => ⟨hi, congrArg _ hu⟩

/-- Who has a channel in hand after a caller has got on had it before, unless that caller has got it
in hand. -/
theorem has_caller {id : Nat} {c : Caller} {i : Nat} {t : Taker} (h : f'.Has i t)
    (hcaller : ∀ j, f'.desk.caller? j = if j = id then some c else f.desk.caller? j)
    (hremover : ∀ j, f'.remover? j = f.remover? j) :
    f.Has i t ∨ (t = .caller id ∧ c.progress = .closing i) := by
  cases t with
  | remover j =>
    obtain ⟨r, hr, hi⟩ := h
    exact .inl ⟨r, (hremover j).symm.trans hr, hi⟩
  | caller j =>
    obtain ⟨e, he, hp⟩ := h
    rw [hcaller] at he
    split at he
    · rename_i hj; cases he; exact .inr ⟨congrArg _ hj, hp⟩
    · exact .inl ⟨e, he, hp⟩

/-- The same for a remover. -/
theorem has_remover {id : Nat} {r : Remover} {i : Nat} {t : Taker} (h : f'.Has i t)
    (hremover : ∀ j, f'.remover? j = if j = id then some r else f.remover? j)
    (hcaller : ∀ j, f'.desk.caller? j = f.desk.caller? j) :
    f.Has i t ∨ (t = .remover id ∧ r.hand = some i) := by
  cases t with
  | caller j =>
    obtain ⟨c, hc, hp⟩ := h
    exact .inl ⟨c, (hcaller j).symm.trans hc, hp⟩
  | remover j =>
    obtain ⟨s, hs, hi⟩ := h
    rw [hremover] at hs
    split at hs
    · rename_i hj; cases hs; exact .inr ⟨congrArg _ hj, hi⟩
    · exact .inl ⟨s, hs, hi⟩

theorem has_turned {id : Nat} {c : Caller} (hc : f.desk.caller? id = some c) {p : Progress}
    {cache : Cache} {channels : List (Channel ς)} {i : Nat} {t : Taker}
    (h : Has { f with desk := f.desk.turned id p cache channels } i t) :
    f.Has i t ∨ (t = .caller id ∧ p = .closing i) :=
  has_caller h (Desk.caller?_turned hc p cache channels) fun _ => rfl

/-- A step that leaves cache, callers and removers as they are moves no channel. -/
theorem Placed.of_aside {d : Desk ς} (hcache : d.cache = f.desk.cache)
    (hcaller : ∀ j, d.caller? j = f.desk.caller? j) : Placed f { f with desk := d } := by
  refine .of_kept (fun {m i} hm => ?_) fun {i t} h => ?_
  · rw [← hcache]; exact hm
  · cases t with
    | caller j =>
      obtain ⟨c, hc, hp⟩ := h
      exact ⟨c, (hcaller j).symm.trans hc, hp⟩
    | remover j => exact h

theorem desk_placed {b : Client.Act ς} {notices : List Notice} {d : Desk ς}
    (hb : ∀ name, b ≠ .takeOut name) (hm : Desk.Move f.desk b notices d) :
    Placed f { f with desk := d } := by
  cases hm with
  | stay | drift | close => exact .of_aside rfl fun _ => rfl
  | enter hid =>
    refine .of_kept id fun h => ?_
    refine (has_caller h (Desk.caller?_enter _ hid) fun _ => rfl).resolve_right ?_
    rintro ⟨-, ⟨⟩⟩
  | takeOut m => exact absurd rfl (hb m)
  | @turn _ id c p cache channels hc ht =>
    -- the turn leaves the entries, or evicts one, or caches what a dial has brought
    rcases ht.entry_cases with ⟨hf, hp⟩ | ⟨k, -, rfl, -, hk, rfl, -⟩ | ⟨channel, -, rfl, -, rfl, hf⟩
    · exact .of_kept (fun hm => (hf _).symm.trans hm) fun h =>
        (has_turned hc h).resolve_right fun h => hp _ h.2
    · refine .of_erased (t := .caller id) rfl fun h => ?_
      refine (has_turned hc h).imp_right fun ⟨ht, hi⟩ => ⟨ht, ?_⟩
      cases hi
      exact hk
    · refine .cached c.name ?_ fun {i q} hq => ?_
      · show _ < (f.desk.channels ++ [channel]).length
        rw [List.length_append, List.length_singleton]; exact Nat.lt_succ_self _
      · cases q with
        | cached m =>
          have hm := (hf m).symm.trans hq
          split at hm
          · rename_i hmn; cases hm; exact .inr ⟨rfl, congrArg _ hmn⟩
          · exact .inl hm
        | hand t => exact .inl ((has_turned hc hq).resolve_right fun h => by cases h.2)

theorem Act.not_takeOut {b : Client.Act ς} (h : a.desk? = some b) (name : String) :
    b ≠ .takeOut name := by
  rintro rfl
  cases a <;> cases h

theorem Move.placed (hm : Move f a f') : Placed f f' := by
  cases hm with
  | stay => exact .same id
  | desk ha hm => exact desk_placed (Act.not_takeOut ha) hm
  | clear names hr =>
    exact .of_kept id fun h =>
      (has_remover h (remover?_clear hr names) fun _ => rfl).resolve_right fun h => nomatch h.2
  | close hr =>
    exact .of_kept id fun h =>
      (has_remover h (remover?_setRemover hr _ _) fun _ => rfl).resolve_right fun h => nomatch h.2
  | takeOut hr =>
    exact .of_erased rfl fun h => has_remover h (remover?_setRemover hr _ _) fun _ => rfl

theorem Move.channels_le (hm : Move f a f') :
    f.desk.channels.length ≤ f'.desk.channels.length := by
  cases hm with
  | stay | clear | takeOut => exact Nat.le_refl _
  | desk _ hm => exact hm.channels_le
  | close => exact Nat.le_of_eq (List.length_modify ..).symm

/-! ## What every run keeps -/

/-- The desk is in order, and every channel has at most one place. -/
structure Kept (f : Floor ς) : Prop where
  orderly : Orderly f.desk
  bounded : Bounded f.desk
  guarded : Guarded f.desk
  known : ∀ {i q}, f.At i q → i < f.desk.channels.length
  single : ∀ {i q r}, f.At i q → f.At i r → q = r

theorem kept_empty : Kept ({} : Floor ς) where
  orderly := ⟨nofun, nofun, nofun⟩
  bounded := Desk.bounded_empty
  guarded := Desk.guarded_empty
  known {i q} hq := by
    cases q with
    | cached => cases hq
    | hand t => cases t <;> (obtain ⟨_, h, -⟩ := hq; cases h)
  single {i q r} hq := by
    cases q with
    | cached => cases hq
    | hand t => cases t <;> (obtain ⟨_, h, -⟩ := hq; cases h)

/-- What every step at the desk keeps, a step on the floor keeps. -/
theorem Move.keeps_desk {P : Desk ς → Prop} (hm : Move f a f') (h : P f.desk)
    (hstep : ∀ {b notices d}, Desk.Move f.desk b notices d → P d) : P f'.desk := by
  cases hm with
  | stay | clear => exact h
  | desk _ hm => exact hstep hm
  | close => exact hstep (.close _)
  | takeOut => exact hstep (.takeOut _)

theorem Kept.move (h : Kept f) (hm : Move f a f') : Kept f' where
  orderly := hm.keeps_desk h.orderly h.orderly.move
  bounded := hm.keeps_desk h.bounded h.bounded.move
  guarded := hm.keeps_desk h.guarded (h.guarded.move h.orderly)
  known {i q} hq := by
    have hle := hm.channels_le
    cases hm.placed with
    | same hold => exact Nat.lt_of_lt_of_le (h.known (hold hq)) hle
    | cached name hlt hold =>
      rcases hold hq with hq | ⟨rfl, -⟩
      · exact Nat.lt_of_lt_of_le (h.known hq) hle
      · exact hlt
    | taken name t _ hold =>
      rcases hold hq with hq | ⟨hq, -⟩ <;> exact Nat.lt_of_lt_of_le (h.known hq) hle
  single {i q r} hq hr := by
    cases hm.placed with
    | same hold => exact h.single (hold hq) (hold hr)
    | cached name _ hold =>
      have fresh {q} (hq : f.At i q) (hi : i = f.desk.channels.length) : False :=
        Nat.lt_irrefl _ (hi ▸ h.known hq)
      rcases hold hq with hq | ⟨hi, rfl⟩ <;> rcases hold hr with hr | ⟨hi', rfl⟩
      · exact h.single hq hr
      · exact (fresh hq hi').elim
      · exact (fresh hr hi).elim
      · rfl
    | taken name t hnone hold =>
      -- a channel that was cached under the name has only the hand now
      have gone {q} (hq' : f'.At i q) (hq : f.At i q) (hn : f.At i (.cached name)) : False := by
        obtain rfl := h.single hq hn
        have hsome : f'.desk.cache.find? name = some i := hq'
        rw [hnone] at hsome; cases hsome
      rcases hold hq with hq' | ⟨hn, rfl⟩ <;> rcases hold hr with hr' | ⟨hn', rfl⟩
      · exact h.single hq' hr'
      · exact (gone hq hq' hn').elim
      · exact (gone hr hr' hn).elim
      · rfl

theorem kept_run (acts : List (Act ς)) : Kept (({} : Floor ς).run acts) := by
  suffices ∀ f : Floor ς, Kept f → Kept (f.run acts) from this _ kept_empty
  induction acts with
  | nil => exact fun _ h => h
  | cons a acts ih => exact fun f h => ih (f.act a) (h.move (step_move f a))

/-! ## Closing -/

theorem Kept.closed? (h : Kept f) {i : Nat} {q : Place} (hq : f.At i q) :
    ∃ b, f.desk.closed? i = some b := by
  unfold Desk.closed? Desk.channel?
  rw [List.getElem?_eq_getElem (h.known hq)]
  exact ⟨_, rfl⟩

theorem Move.closed (hm : Move f a f') {i : Nat} (h : f.desk.closed? i = some true) :
    f'.desk.closed? i = some true :=
  hm.keeps_desk h fun hm => (hm.closed?_cases h).elim id And.left

/-- Who has taken a channel out closes it next. -/
theorem Kept.closes (h : Kept f) {i : Nat} {t : Taker} (ht : f.Has i t) :
    (f.act t.next).desk.closed? i = some true := by
  obtain ⟨b, hb⟩ := h.closed? (q := .hand t) ht
  have hclosed : (f.desk.closeChannel i).closed? i = some true :=
    (Desk.closed?_close hb).trans (by rw [if_pos rfl])
  cases t with
  | caller id =>
    obtain ⟨⟨name, p⟩, hc, rfl⟩ := ht
    have hs : f.desk.step id = some ((f.desk.closeChannel i).missed id name) := by
      unfold Desk.step
      rw [hc]; rfl
    show ((f.desk.step id).getD f.desk).closed? i = some true
    rw [hs]; exact hclosed
  | remover id =>
    obtain ⟨⟨names, hand⟩, hr, rfl⟩ := ht
    show (f.proceed id).desk.closed? i = some true
    unfold proceed
    rw [hr]; exact hclosed

/-- What is cached stays so, or is taken out into a hand. -/
theorem Kept.cached_move (h : Kept f) (hm : Move f a f') {name : String} {i : Nat}
    (hi : f.desk.cache.find? name = some i) :
    f'.desk.cache.find? name = some i ∨ ∃ t, f'.Has i t := by
  cases hm with
  | stay | clear | close => exact .inl hi
  | desk ha hm =>
    cases hm with
    | stay | enter | drift | close => exact .inl hi
    | takeOut m => exact absurd rfl (Act.not_takeOut ha m)
    | @turn _ id c p cache channels hc ht =>
      rcases ht.entry_cases with ⟨hf, -⟩ | ⟨k, -, rfl, -, hk, rfl, -⟩ | ⟨channel, hp, -, -, -, hf⟩
      · exact .inl ((hf name).trans hi)
      · by_cases hn : name = c.name
        · rw [← hn, hi] at hk; cases hk
          refine .inr ⟨.caller id, { c with progress := .closing i }, ?_, rfl⟩
          exact (Desk.caller?_turned hc ..).trans (if_pos rfl)
        · exact .inl ((Cache.find?_erase ..).trans ((if_neg hn).trans hi))
      -- nothing is cached under the name of one who dials
      · refine .inl ((hf name).trans ((if_neg fun hn => ?_).trans hi))
        rw [hn, h.guarded.vacant h.orderly hc hp] at hi; cases hi
  | @takeOut id m names hr =>
    by_cases hn : name = m
    · refine .inr ⟨.remover id, { names, hand := f.desk.cache.find? m }, ?_, hn ▸ hi⟩
      exact (remover?_setRemover hr ..).trans (if_pos rfl)
    · exact .inl ((Cache.find?_erase ..).trans ((if_neg hn).trans hi))

/-- What somebody has in hand stays there, or is closed. -/
theorem Kept.has_move (h : Kept f) (hm : Move f a f') {i : Nat} {t : Taker} (ht : f.Has i t) :
    f'.Has i t ∨ f'.desk.closed? i = some true := by
  obtain ⟨b, hb⟩ := h.closed? (q := .hand t) ht
  have hclosed : (f.desk.closeChannel i).closed? i = some true :=
    (Desk.closed?_close hb).trans (by rw [if_pos rfl])
  cases t with
  | caller j =>
    obtain ⟨e, he, hp⟩ := ht
    cases hm with
    | stay | clear | close | takeOut => exact .inl ⟨e, he, hp⟩
    | desk ha hm =>
      cases hm with
      | stay | drift | close | takeOut => exact .inl ⟨e, he, hp⟩
      | enter hid =>
        refine .inl ⟨e, (Desk.caller?_enter _ hid j).trans ((if_neg fun hj => ?_).trans he), hp⟩
        rw [hj, hid] at he; cases he
      | @turn _ id c p cache channels hc ht =>
        by_cases hj : j = id
        · rw [hj, hc] at he; cases he
          rw [hp] at ht
          obtain rfl := ht.closes
          exact .inr hclosed
        · exact .inl ⟨e, (Desk.caller?_turned hc _ _ _ j).trans ((if_neg hj).trans he), hp⟩
  | remover j =>
    obtain ⟨r, hr, hi⟩ := ht
    cases hm with
    | stay | desk => exact .inl ⟨r, hr, hi⟩
    | clear names hid =>
      refine .inl ⟨r, (remover?_clear hid names j).trans ((if_neg fun hj => ?_).trans hr), hi⟩
      rw [hj, hid] at hr; cases hr
    | @close id k names hid =>
      by_cases hj : j = id
      · rw [hj, hid] at hr; cases hr
        cases hi
        exact .inr hclosed
      · exact .inl ⟨r, (remover?_setRemover hid _ _ j).trans ((if_neg hj).trans hr), hi⟩
    | @takeOut id m names hid =>
      by_cases hj : j = id
      · rw [hj, hid] at hr; cases hr
        cases hi
      · exact .inl ⟨r, (remover?_setRemover hid _ _ j).trans ((if_neg hj).trans hr), hi⟩

/-- A channel is cached under its name, or closed, or somebody has it in hand. -/
def Accounted (f : Floor ς) (name : String) (i : Nat) : Prop :=
  f.desk.cache.find? name = some i ∨ f.desk.closed? i = some true ∨ ∃ t, f.Has i t

theorem Kept.accounted_move (h : Kept f) (hm : Move f a f') {name : String} {i : Nat}
    (hi : f.Accounted name i) : f'.Accounted name i := by
  rcases hi with hi | hi | ⟨t, ht⟩
  · exact (h.cached_move hm hi).imp_right .inr
  · exact .inr (.inl (hm.closed hi))
  · exact .inr ((h.has_move hm ht).elim (fun ht => .inr ⟨t, ht⟩) .inl)

theorem Kept.accounted_run (h : Kept f) {name : String} {i : Nat} (hi : f.Accounted name i)
    (acts : List (Act ς)) : (f.run acts).Accounted name i := by
  induction acts generalizing f with
  | nil => exact hi
  | cons a acts ih => exact ih (h.move (step_move f a)) (h.accounted_move (step_move f a) hi)

/-- A dial that brings a channel puts it into the cache, under the name it was asked for. -/
theorem answer_cached {id : Nat} {name : String}
    (hc : f.desk.caller? id = some { name, progress := .dialing }) (channel : Channel ς) :
    (f.act (.answer id (.ok channel))).desk.cache.find? name = some f.desk.channels.length := by
  have hact : f.desk.act (.answer id (.ok channel)) = f.desk.dialed id name (.ok channel) := by
    simp only [Desk.act, hc]
  show (f.desk.act (.answer id (.ok channel))).cache.find? name = _
  rw [hact]
  exact (Cache.find?_leave ..).trans ((Cache.find?_insert ..).trans (if_pos rfl))

/-- A fault changes nothing that is cached. -/
theorem answer_error (f : Floor ς) (id : Nat) (fault : Fault) :
    (f.act (.answer id (.error fault))).desk.cache.entries = f.desk.cache.entries := by
  show (f.desk.act (.answer id (.error fault))).cache.entries = _
  simp only [Desk.act]
  split <;> rfl

/-! ## Evicting -/

/-- A caller that is about to take a dead channel out has seen it dead in an earlier step. -/
def Condemned (acts : List (Act ς)) (id : Nat) (name : String) (i : Nat) : Prop :=
  ∃ before after, acts = before ++ .go id :: after ∧
    (({} : Floor ς).run before).desk.caller? id = some { name, progress := .seeing i } ∧
    ((({} : Floor ς).run before).desk.stateOf i).isUsable = false

theorem Condemned.later {acts : List (Act ς)} {id : Nat} {name : String} {i : Nat}
    (h : Condemned acts id name i) (more : List (Act ς)) : Condemned (acts ++ more) id name i := by
  obtain ⟨before, after, rfl, hseen⟩ := h
  exact ⟨before, after ++ more, by rw [List.append_assoc, List.cons_append], hseen⟩

/-- Who is about to take a channel out was so before, or has just seen it dead. -/
theorem Move.evicting (hm : Move f a f') {id : Nat} {c : Caller} {i : Nat}
    (hc : f'.desk.caller? id = some c) (hp : c.progress = .evicting i) :
    f.desk.caller? id = some c ∨ (a = .go id ∧
      f.desk.caller? id = some { c with progress := .seeing i } ∧
      (f.desk.stateOf i).isUsable = false) := by
  cases hm with
  | stay | clear | close | takeOut => exact .inl hc
  | @desk _ b notices d ha hm =>
    cases hm with
    | stay | drift | close | takeOut => exact .inl hc
    | enter hid =>
      have hj := (Desk.caller?_enter _ hid id).symm.trans hc
      split at hj
      · cases hj; cases hp
      · exact .inl hj
    | @turn _ j e p cache channels he ht =>
      have hj := (Desk.caller?_turned he p cache channels id).symm.trans hc
      split at hj
      · rename_i hid
        subst hid
        cases hj
        obtain ⟨name, q⟩ := e
        dsimp only at hp ht he ⊢
        subst hp
        cases ht with
        | condemn hu =>
          refine .inr ⟨?_, he, hu⟩
          cases a <;> cases ha; rfl
      · exact .inl hj

theorem condemned_run (acts : List (Act ς)) {id : Nat} {c : Caller} {i : Nat}
    (hc : (({} : Floor ς).run acts).desk.caller? id = some c) (hp : c.progress = .evicting i) :
    Condemned acts id c.name i := by
  induction acts using List.reverseRecOn generalizing c with
  | nil => cases hc
  | append_singleton acts a ih =>
    rw [run_concat] at hc
    rcases (step_move _ a).evicting hc hp with hc | ⟨rfl, hc, hu⟩
    · exact (ih hc hp).later [a]
    · exact ⟨acts, [], rfl, hc, hu⟩

/-- A step of a caller that takes a channel out of the cache is the eviction of the very channel it
is about to take out. -/
theorem go_evicts {id : Nat} {name : String} {i : Nat} (hi : f.desk.cache.find? name = some i)
    (hgone : (f.act (.go id)).desk.cache.find? name ≠ some i) :
    f.desk.caller? id = some { name, progress := .evicting i } := by
  have hgone : (f.desk.act (.go id)).cache.find? name ≠ some i := hgone
  have hm := Desk.step_move f.desk (.go id)
  generalize f.desk.notices (.go id) = notices at hm
  generalize f.desk.act (.go id) = d at hm hgone
  generalize hg : Client.Act.go id = b at hm
  cases hm with
  | stay | enter | drift | close => exact absurd hi hgone
  | takeOut => cases hg
  | @turn _ j c p cache channels hc ht =>
    rcases ht.entry_cases with ⟨hf, -⟩ | ⟨k, hp, -, ha, hk, rfl, -⟩ | ⟨channel, -, -, ha, -⟩
    · exact absurd ((hf name).trans hi) hgone
    · have hn : name = c.name := by
        by_contra hn
        exact hgone ((Cache.find?_erase ..).trans ((if_neg hn).trans hi))
      rw [ha] at hg; cases hg
      rw [← hn, hi] at hk; cases hk
      obtain ⟨m, q⟩ := c
      cases hn; cases hp
      exact hc
    · rw [ha] at hg; cases hg

/-! ## The law -/

/-- The cache never loses a channel. Whatever callers, dials and removers do, in any order: under each
name at most one caller dials, and it finds nothing cached there when its dial ends; a fault leaves
the entries as they are; a caller takes nothing out but the channel that is cached and that it has
seen dead itself; and a channel that a dial has brought is cached under the name it was asked for,
or closed, or in the hand of exactly one, who closes it by its next step. -/
theorem never_lost (acts : List (Act ς)) :
    let f := ({} : Floor ς).run acts
    (∀ {id j c e}, f.desk.caller? id = some c → f.desk.caller? j = some e → c.name = e.name →
      c.progress = .dialing → e.progress = .dialing → id = j) ∧
    (∀ {id c}, f.desk.caller? id = some c → c.progress = .dialing →
      f.desk.cache.find? c.name = none) ∧
    (∀ id fault, (f.act (.answer id (.error fault))).desk.cache.entries = f.desk.cache.entries) ∧
    (∀ {id name i}, f.desk.cache.find? name = some i →
      (f.act (.go id)).desk.cache.find? name ≠ some i → Condemned acts id name i) ∧
    (∀ {before after id name channel}, acts = before ++ .answer id (.ok channel) :: after →
      (({} : Floor ς).run before).desk.caller? id = some { name, progress := .dialing } →
      let i := (({} : Floor ς).run before).desk.channels.length
      f.desk.cache.find? name = some i ∨ f.desk.closed? i = some true ∨ ∃! t, f.Has i t) ∧
    (∀ {i t}, f.Has i t → (∀ name, f.desk.cache.find? name ≠ some i) ∧
      (f.act t.next).desk.closed? i = some true) := by
  intro f
  have h : Kept f := kept_run acts
  refine ⟨?_, fun hc hp => h.guarded.vacant h.orderly hc hp, answer_error f, ?_, ?_, ?_⟩
  · -- who dials has the right to create
    intro id j c e hc he hn hp hq
    have hhold := h.orderly.dialing he hq
    exact Cache.holds_unique _ _ (hn ▸ hhold) (h.orderly.dialing hc hp)
  · intro id name i hi hgone
    exact condemned_run acts (go_evicts hi hgone) rfl
  · -- accounted for when it is cached, and from then on by every step
    intro before after id name channel hacts hc i
    have hi : f.Accounted name i := by
      have hbefore := kept_run before
      show (Floor.run {} acts).Accounted name i
      rw [hacts, run_append]
      exact (hbefore.move (step_move _ _)).accounted_run (.inl (answer_cached hc channel)) after
    refine hi.imp_right (.imp_right fun ⟨t, ht⟩ => ⟨t, ht, fun u hu => ?_⟩)
    cases h.single (q := .hand u) (r := .hand t) hu ht
    rfl
  · intro i t ht
    refine ⟨fun name hi => ?_, h.closes ht⟩
    cases h.single (q := .hand t) (r := .cached name) ht hi

/-- Somebody removes a channel, and before it is closed another caller dials the name again. -/
def overtaken (channel : Channel Unit) : List (Act Unit) :=
  [.enter 0 "orders", .go 0, .go 0, .go 0, .go 0, .answer 0 (.ok channel)] ++
  [.clear 0 ["orders"], .proceed 0] ++
  [.enter 1 "orders", .go 1, .go 1, .go 1, .go 1, .answer 1 (.ok channel)]

/-- The removed channel is still open then and another one is cached in its place; one remover has it
in hand, and closes it next. -/
theorem closed_by_one_remover :
    let channel : Channel Unit := { target := .ofService "test" "orders" }
    let f := ({} : Floor Unit).run (overtaken channel)
    f.desk.cache.find? "orders" = some 1 ∧ f.desk.closed? 0 = some false ∧ (∃! t, f.Has 0 t) ∧
      (f.act (.proceed 0)).desk.closed? 0 = some true := by
  intro channel f
  obtain ⟨-, -, -, -, hkept, hheld⟩ := never_lost (overtaken channel)
  have hcached : f.desk.cache.find? "orders" = some 1 := by decide +kernel
  have hopen : f.desk.closed? 0 = some false := by decide +kernel
  refine ⟨hcached, hopen, ?_, ?_⟩
  · have hplace : f.desk.cache.find? "orders" = some 0 ∨ f.desk.closed? 0 = some true ∨
        ∃! t, f.Has 0 t :=
      @hkept ((overtaken channel).take 5) _ 0 _ channel rfl (by decide +kernel)
    refine (hplace.resolve_left fun h => ?_).resolve_left fun h => ?_
    · rw [hcached] at h; cases h
    · rw [hopen] at h; cases h
  · exact (@hheld 0 (.remover 0)
      ⟨{ names := [], hand := some 0 }, by decide +kernel, rfl⟩).2

end Floor
end Muster.Client
