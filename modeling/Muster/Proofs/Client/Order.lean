/-
What holds of every name in the connection cache at all times. The queues are in order (`Orderly`): whoever
stands in one is not done, whoever waits stands in one, and whoever dials has the right to. So callers who
can all go no further on their own are done, unless one of them dials. A channel is known by its number
from the moment it is cached, and no other is (`Bounded`); once closed it stays closed.
-/
import Muster.Proofs.Client.Moves

namespace Muster.Client

/-- The channel a caller has in hand. -/
def Progress.channel? : Progress → Option Nat
  | seeing i | evicting i | closing i | served i => some i
  | _ => none

namespace Desk

variable {ς : Type} {d d' : Desk ς} {a : Act ς} {notices : List Notice}

/-! ## Turns -/

section Turn

variable {id : Nat} {name : String} {p p' : Progress} {cache : Cache} {channels : List (Channel ς)}

theorem Turn.unfinished (h : Turn d id name a p p' cache channels) : p.result? = none := by
  cases h with
  | begin hv | miss hv => cases hv <;> rfl
  | _ => rfl

theorem Turn.holds (h : Turn d id name a p .dialing cache channels) :
    cache.holds name id = true := by
  cases h; assumption

/-- A turn leaves the queues as they are, or takes the caller out of one or puts it there to wait. -/
theorem Turn.queue_cases (h : Turn d id name a p p' cache channels) :
    ((∀ m, cache.queue m = d.cache.queue m) ∧ p'.result? = none) ∨
    (∀ m, cache.queue m = (d.cache.leave name id).queue m) ∨
    ((∀ m, cache.queue m = (d.cache.setQueue name (d.cache.queue name ++ [id])).queue m) ∧
      p' = .queued) := by
  cases h with
  | serve | fail => exact .inr (.inl fun _ => rfl)
  | bring =>
    refine .inr (.inl fun m => ?_)
    simp only [Cache.leave, Cache.queue_setQueue, Cache.queue_insert]
  | join => exact .inr (.inr ⟨fun _ => rfl, rfl⟩)
  | _ => exact .inl ⟨fun _ => rfl, rfl⟩

/-- Who stands in a queue after a turn stood there before, and is not done by it, or has just come. -/
theorem Turn.mem_queue (h : Turn d id name a p p' cache channels) {m : String} {j : Nat}
    (hj : j ∈ cache.queue m) :
    (j ∈ d.cache.queue m ∧ (m = name → j = id → p'.result? = none)) ∨
      (m = name ∧ j = id ∧ p' = .queued) := by
  rcases h.queue_cases with ⟨hq, hr⟩ | hq | ⟨hq, rfl⟩
  · rw [hq] at hj; exact .inl ⟨hj, fun _ _ => hr⟩
  · rw [hq, Cache.mem_queue_leave] at hj
    exact .inl ⟨hj.1, fun hm he => absurd he (hj.2 hm)⟩
  · rw [hq, Cache.mem_queue_join] at hj
    exact hj.imp (fun hj => ⟨hj, fun _ _ => rfl⟩) fun ⟨hm, he⟩ => ⟨hm, he, rfl⟩

theorem Turn.joined (h : Turn d id name a p .queued cache channels) : id ∈ cache.queue name := by
  cases h
  exact (Cache.mem_queue_join ..).2 (.inr ⟨rfl, rfl⟩)

/-- Others stay in the queues they stand in, and keep the right to dial. -/
theorem Turn.others (h : Turn d id name a p p' cache channels) {j : Nat} (hj : j ≠ id)
    (m : String) : (j ∈ d.cache.queue m → j ∈ cache.queue m) ∧
      (d.cache.holds m j = true → cache.holds m j = true) := by
  unfold Cache.holds
  rcases h.queue_cases with ⟨hq, -⟩ | hq | ⟨hq, -⟩ <;> rw [hq]
  · exact ⟨fun hm => hm, fun hh => hh⟩
  · exact ⟨fun hm => (Cache.mem_queue_leave ..).2 ⟨hm, fun _ => hj⟩,
      fun hh => Cache.holds_leave _ _ _ hh fun _ => hj⟩
  · exact ⟨fun hm => (Cache.mem_queue_join ..).2 (.inl hm), Cache.holds_join _ _ _⟩

/-- What is cached after a turn was cached before, or has just been dialed. -/
theorem Turn.find?_cases (h : Turn d id name a p p' cache channels) {m : String} {k : Nat}
    (hk : cache.find? m = some k) :
    d.cache.find? m = some k ∨ (m = name ∧ p = .dialing ∧ p' = .served k) := by
  cases h with
  | evict =>
    rw [Cache.find?_erase] at hk
    split at hk
    · cases hk
    · exact .inl hk
  | bring =>
    rw [Cache.find?_leave, Cache.find?_insert] at hk
    split at hk
    · rename_i hm; cases hk; exact .inr ⟨hm, rfl, rfl⟩
    · exact .inl hk
  | _ => exact .inl hk

/-- A dial that brings a channel gives it the next number. -/
theorem Turn.brought {k : Nat} (h : Turn d id name a .dialing (.served k) cache channels) :
    k = d.channels.length ∧ cache.find? name = some k ∧
      ∃ channel, a = .answer id (.ok channel) ∧ channels = d.channels ++ [channel] := by
  cases h with
  | bring channel =>
    refine ⟨rfl, ?_, channel, rfl, rfl⟩
    rw [Cache.find?_leave, Cache.find?_insert, if_pos rfl]

/-- A turn concerns the entry of its own name only. -/
theorem Turn.find?_other (h : Turn d id name a p p' cache channels) {m : String} (hm : m ≠ name) :
    cache.find? m = d.cache.find? m := by
  cases h with
  | evict => rw [Cache.find?_erase, if_neg hm]
  | bring => rw [Cache.find?_leave, Cache.find?_insert, if_neg hm]
  | _ => rfl

/-- A caller has in hand what it had before, what is cached, or what it has just dialed. -/
theorem Turn.channel?_cases (h : Turn d id name a p p' cache channels) {k : Nat}
    (hk : p'.channel? = some k) : p.channel? = some k ∨ d.cache.find? name = some k ∨
      (p = .dialing ∧ p' = .served k) := by
  cases h with
  | find hf => cases hk; exact .inr (.inl hf)
  | serve | condemn | evict => exact .inl hk
  | bring => cases hk; exact .inr (.inr ⟨rfl, rfl⟩)
  | begin | miss | join | rise | fail => cases hk

/-- A turn closes a channel, brings one, or leaves the channels as they are. -/
theorem Turn.channels_cases (h : Turn d id name a p p' cache channels) :
    channels = d.channels ∨
    (∃ k, p = .closing k ∧ channels = d.channels.modify k Channel.close) ∨
    ∃ channel, channels = d.channels ++ [channel] := by
  cases h with
  | begin hv | miss hv =>
    cases hv with
    | absent | replaced => exact .inl rfl
    | closed => exact .inr (.inl ⟨_, rfl, rfl⟩)
  | bring channel => exact .inr (.inr ⟨channel, rfl⟩)
  | _ => exact .inl rfl

theorem Turn.closes {i : Nat} (h : Turn d id name a (.closing i) p' cache channels) :
    channels = d.channels.modify i Channel.close := by
  cases h with
  | begin hv | miss hv => cases hv; rfl

end Turn

/-! ## The queues -/

structure Orderly (d : Desk ς) : Prop where
  member : ∀ {name id}, id ∈ d.cache.queue name →
    ∃ c, d.caller? id = some c ∧ c.name = name ∧ c.progress.result? = none
  queued : ∀ {id c}, d.caller? id = some c → c.progress = .queued → id ∈ d.cache.queue c.name
  dialing : ∀ {id c}, d.caller? id = some c → c.progress = .dialing →
    d.cache.holds c.name id = true

/-- What `Orderly` says only concerns queues and callers. -/
theorem Orderly.congr (h : Orderly d) (hq : ∀ m, d'.cache.queue m = d.cache.queue m)
    (hc : ∀ id, d'.caller? id = d.caller? id) : Orderly d' where
  member hid := by
    rw [hq] at hid
    rw [hc]; exact h.member hid
  queued hid hp := by rw [hc] at hid; rw [hq]; exact h.queued hid hp
  dialing hid hp := by
    rw [hc] at hid
    have := h.dialing hid hp
    unfold Cache.holds at *
    rw [hq]; exact this

theorem Orderly.enter (h : Orderly d) {id : Nat} {name : String} (hid : d.caller? id = none) :
    Orderly (d.enter id name) where
  member hj := by
    obtain ⟨c, hc, hcn, hcp⟩ := h.member hj
    refine ⟨c, ?_, hcn, hcp⟩
    rw [caller?_enter d hid, if_neg (fun he => ?_)]
    · exact hc
    · rw [he, hid] at hc; cases hc
  queued hj hp := by
    rw [caller?_enter d hid] at hj
    split at hj
    · cases hj; cases hp
    · exact h.queued hj hp
  dialing hj hp := by
    rw [caller?_enter d hid] at hj
    split at hj
    · cases hj; cases hp
    · exact h.dialing hj hp

theorem Orderly.turn (h : Orderly d) {id : Nat} {c : Caller} (hc : d.caller? id = some c)
    {p : Progress} {cache : Cache} {channels : List (Channel ς)}
    (ht : Turn d id c.name a c.progress p cache channels) :
    Orderly (d.turned id p cache channels) where
  member {name j} hj := by
    rw [caller?_turned hc]
    rcases ht.mem_queue hj with ⟨hj, hr⟩ | ⟨hn, rfl, rfl⟩
    · obtain ⟨e, he, hen, her⟩ := h.member hj
      split
      · rename_i hjd
        rw [hjd, hc] at he; cases he
        exact ⟨_, rfl, hen, hr hen.symm hjd⟩
      · exact ⟨e, he, hen, her⟩
    · rw [if_pos rfl]
      exact ⟨_, rfl, hn.symm, rfl⟩
  queued {j e} hj hp := by
    rw [caller?_turned hc] at hj
    split at hj
    · rename_i hjd
      cases hj; subst hp hjd
      exact ht.joined
    · rename_i hjd
      exact (ht.others hjd e.name).1 (h.queued hj hp)
  dialing {j e} hj hp := by
    rw [caller?_turned hc] at hj
    split at hj
    · rename_i hjd
      cases hj; subst hp hjd
      exact ht.holds
    · rename_i hjd
      exact (ht.others hjd e.name).2 (h.dialing hj hp)

theorem Orderly.move (h : Orderly d) (hm : Move d a notices d') : Orderly d' := by
  cases hm with
  | stay => exact h
  | enter hid => exact h.enter hid
  | turn hc ht => exact h.turn hc ht
  | drift | takeOut | close => exact h.congr (fun _ => rfl) fun _ => rfl

theorem orderly_run (acts : List (Act ς)) : Orderly (({} : Desk ς).run acts) :=
  run_invariant (P := fun d _ => Orderly d) (fun (_ : True) hm h => h.move hm) {}
    ⟨nofun, nofun, nofun⟩ acts fun _ _ => trivial

/-- Who can go no further on its own dials, is done, or waits for somebody. -/
theorem step_none {id : Nat} {c : Caller} (hc : d.caller? id = some c) (hs : d.step id = none) :
    c.progress = .dialing ∨ c.progress.result?.isSome = true ∨
      (c.progress = .queued ∧ d.cache.holds c.name id = false) := by
  unfold step at hs
  simp only [hc, Option.bind_eq_bind, Option.bind_some] at hs
  cases hp : c.progress with
  | dialing => exact .inl rfl
  | served | failed => exact .inr (.inl rfl)
  | queued =>
    simp only [hp] at hs
    split at hs
    · cases hs
    · rename_i hh; exact .inr (.inr ⟨rfl, Bool.not_eq_true _ ▸ hh⟩)
  | looking | seeing | evicting | closing | joining =>
    simp only [hp] at hs
    repeat' split at hs
    all_goals cases hs

/-- Nobody waits for ever: when none of those who want the channel of a name can go on or dials, all
of them are done. -/
theorem Orderly.all_done (h : Orderly d) {name : String}
    (hrest : ∀ id c, d.caller? id = some c → c.name = name → c.progress.result? = none →
      d.step id = none ∧ c.progress ≠ .dialing)
    {id : Nat} {c : Caller} (hc : d.caller? id = some c) (hn : c.name = name) :
    c.progress.result?.isSome = true := by
  cases hr : c.progress.result? with
  | some r => rfl
  | none =>
    exfalso
    obtain ⟨hs, hd⟩ := hrest id c hc hn hr
    rcases step_none hc hs with hp | hr' | ⟨hp, -⟩
    · exact hd hp
    · rw [hr] at hr'; cases hr'
    -- the first of the queue it waits in would have to wait as well, and has the right to dial
    · obtain ⟨first, others, hq⟩ := List.exists_cons_of_ne_nil
        (List.ne_nil_of_mem (h.queued hc hp))
      have hfirst : d.cache.holds c.name first = true := by
        unfold Cache.holds; rw [hq, List.head?_cons, beq_self_eq_true]
      obtain ⟨e, he, hen, her⟩ := h.member (Cache.mem_queue_of_holds _ _ hfirst)
      obtain ⟨hes, hed⟩ := hrest first e he (hen.trans hn) her
      rcases step_none he hes with hp' | hr' | ⟨-, hh'⟩
      · exact hed hp'
      · rw [her] at hr'; cases hr'
      · rw [hen, hfirst] at hh'; cases hh'

/-! ## The numbers of the channels -/

/-- A channel is known under a name: it is cached there, or some caller has it in hand. -/
def Knows (d : Desk ς) (name : String) (k : Nat) : Prop :=
  d.cache.find? name = some k ∨
    ∃ id c, d.caller? id = some c ∧ c.name = name ∧ c.progress.channel? = some k

/-- What is known after a step was known before, or has just been dialed. -/
theorem Move.knows (hm : Move d a notices d') {name : String} {k : Nat} (hk : d'.Knows name k) :
    d.Knows name k ∨ (k = d.channels.length ∧ d'.channels.length = d.channels.length + 1 ∧
      notices = [.brought name k]) := by
  cases hm with
  | stay => exact .inl hk
  | enter hid =>
    refine .inl (hk.imp_right fun ⟨j, c, hj, hn, hch⟩ => ?_)
    rw [caller?_enter d hid] at hj
    split at hj
    · cases hj; cases hch
    · exact ⟨j, c, hj, hn, hch⟩
  | @turn _ id c p cache channels hc ht =>
    have fresh (hn : c.name = name) (hp : c.progress = .dialing) (hp' : p = .served k) :
        k = d.channels.length ∧ (d.turned id p cache channels).channels.length =
          d.channels.length + 1 ∧ c.progress.heard c.name p = [.brought name k] := by
      rw [hp, hp'] at ht
      obtain ⟨hk, -, channel, -, hch⟩ := ht.brought
      refine ⟨hk, ?_, by rw [hp, hp', hn]; rfl⟩
      change channels.length = _
      rw [hch, List.length_append, List.length_singleton]
    rcases hk with hf | ⟨j, e, hj, hn, hch⟩
    · rcases ht.find?_cases hf with hf | ⟨hm, hp, hp'⟩
      · exact .inl (.inl hf)
      · exact .inr (fresh hm.symm hp hp')
    · rw [caller?_turned hc] at hj
      split at hj
      · cases hj
        rcases ht.channel?_cases hch with hch | hf | ⟨hp, hp'⟩
        · exact .inl (.inr ⟨id, c, hc, hn, hch⟩)
        · exact .inl (.inl (hn ▸ hf))
        · exact .inr (fresh hn hp hp')
      · exact .inl (.inr ⟨j, e, hj, hn, hch⟩)
  | drift | close => exact .inl hk
  | takeOut m =>
    refine .inl (hk.imp_left fun hf => ?_)
    change (d.cache.erase m).find? name = some k at hf
    rw [Cache.find?_erase] at hf
    split at hf
    · cases hf
    · exact hf

theorem Move.channels_le (hm : Move d a notices d') : d.channels.length ≤ d'.channels.length := by
  cases hm with
  | stay | enter | takeOut => exact Nat.le_refl _
  | turn hc ht =>
    rcases ht.channels_cases with h | ⟨k, -, h⟩ | ⟨channel, h⟩
    · exact Nat.le_of_eq (congrArg List.length h).symm
    · exact Nat.le_of_eq ((congrArg List.length h).trans (List.length_modify ..)).symm
    · exact Nat.le_trans (Nat.le_add_right _ 1)
        (Nat.le_of_eq ((congrArg List.length h).trans List.length_append).symm)
  | drift | close => exact Nat.le_of_eq (List.length_modify ..).symm

/-- Only numbers that have been given are known. -/
def Bounded (d : Desk ς) : Prop := ∀ name k, d.Knows name k → k < d.channels.length

theorem Bounded.move (h : Bounded d) (hm : Move d a notices d') : Bounded d' := by
  intro name k hk
  rcases hm.knows hk with hk | ⟨rfl, hl, -⟩
  · exact Nat.lt_of_lt_of_le (h name k hk) hm.channels_le
  · rw [hl]; exact Nat.lt_succ_self _

theorem bounded_empty : Bounded ({} : Desk ς) := by
  intro name k hk
  rcases hk with hk | ⟨id, c, hc, -⟩
  · cases hk
  · cases hc

theorem bounded_run (acts : List (Act ς)) : Bounded (({} : Desk ς).run acts) :=
  run_invariant (P := fun d _ => Bounded d) (fun (_ : True) hm h => h.move hm) {} bounded_empty acts
    fun _ _ => trivial

/-! ## Closing -/

/-- Whether a channel is closed, when it is there. -/
def closed? (d : Desk ς) (i : Nat) : Option Bool := (d.channel? i).map (·.closed)

theorem closed?_modify (channels : List (Channel ς)) (f : Channel ς → Channel ς) (k i : Nat) :
    ((channels.modify k f)[i]?).map (·.closed) =
      (channels[i]?).map fun c => if k = i then (f c).closed else c.closed := by
  rw [List.getElem?_modify]
  cases channels[i]? with
  | none => rfl
  | some c => by_cases hk : k = i <;> simp only [hk, if_true, if_false] <;> rfl

theorem closed?_close {k i : Nat} {b : Bool} (hb : d.closed? i = some b) :
    (d.closeChannel k).closed? i = some (if k = i then true else b) := by
  obtain ⟨c, hc, rfl⟩ := Option.map_eq_some_iff.1 hb
  refine (closed?_modify d.channels Channel.close k i).trans ?_
  change (d.channel? i).map _ = _
  rw [hc, Option.map_some, Channel.close_closed]

theorem Bounded.closed?_isSome (h : Bounded d) {name : String} {k : Nat} (hk : d.Knows name k) :
    ∃ b, d.closed? k = some b := by
  unfold closed? channel?
  rw [List.getElem?_eq_getElem (h name k hk)]
  exact ⟨_, rfl⟩

/-- A channel is as open as it was before, or closed by the step: by a caller who has taken it out or
by somebody else. -/
theorem Move.closed?_cases (hm : Move d a notices d') {i : Nat} {b : Bool}
    (hb : d.closed? i = some b) : d'.closed? i = some b ∨ (d'.closed? i = some true ∧
      (a = .close i ∨ ∃ id c, d.caller? id = some c ∧ c.progress = .closing i)) := by
  have close (k : Nat) (hk : k = i → a = .close i ∨
      ∃ id c, d.caller? id = some c ∧ c.progress = .closing i) :
      (d.closeChannel k).closed? i = some b ∨ ((d.closeChannel k).closed? i = some true ∧
        (a = .close i ∨ ∃ id c, d.caller? id = some c ∧ c.progress = .closing i)) := by
    rw [closed?_close hb]
    by_cases h : k = i
    · rw [if_pos h]; exact .inr ⟨rfl, hk h⟩
    · rw [if_neg h]; exact .inl rfl
  cases hm with
  | stay | enter | takeOut => exact .inl hb
  | @turn _ id c p cache channels hc ht =>
    rcases ht.channels_cases with rfl | ⟨k, hp, rfl⟩ | ⟨channel, rfl⟩
    · exact .inl hb
    · exact close k fun hk => .inr ⟨id, c, hc, hk ▸ hp⟩
    · refine .inl ?_
      obtain ⟨c, hi, -⟩ := Option.map_eq_some_iff.1 hb
      change ((d.channels ++ [channel])[i]?).map _ = _
      rw [List.getElem?_append_left (List.getElem?_eq_some_iff.1 hi).1]
      exact hb
  | drift k channel =>
    refine .inl ((closed?_modify d.channels _ k i).trans (Eq.trans ?_ hb))
    simp only [ite_self]; rfl
  | close k => exact close k fun hk => .inl (hk ▸ rfl)

end Desk
end Muster.Client
