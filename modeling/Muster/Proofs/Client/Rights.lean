/-
The right to dial for the connection cache, once more. Who uses it meets no other channel under the name
than the one it has seen, since nobody else puts one there (`Guarded`); so a dial always ends at a vacant
name.
-/
import Muster.Proofs.Client.Order

namespace Muster.Client

variable {ς : Type}

/-- What may be cached under the name of a caller that has the right to dial: the channel it has
seen, and nothing once it has taken that out or dials. -/
def Progress.Fits (found : Option Nat) : Progress → Prop
  | seeing i | evicting i => ∀ k, found = some k → k = i
  | closing _ | dialing => found = none
  | _ => True

theorem Progress.fits_none (p : Progress) : p.Fits none := by
  cases p with
  | seeing | evicting => exact nofun
  | closing | dialing => rfl
  | looking | joining | queued | served | failed => trivial

namespace Desk

variable {d d' : Desk ς} {a : Act ς} {notices : List Notice}

/-- Whoever stands in a queue waits or has the right to dial, and nobody puts another channel under
the name than the one it has seen. -/
structure Guarded (d : Desk ς) : Prop where
  risen : ∀ {id c}, d.caller? id = some c → id ∈ d.cache.queue c.name →
    c.progress = .queued ∨ d.cache.holds c.name id = true
  fits : ∀ {id c}, d.caller? id = some c → id ∈ d.cache.queue c.name →
    c.progress.Fits (d.cache.find? c.name)

section Turn

variable {id : Nat} {name : String} {p p' : Progress} {cache : Cache} {channels : List (Channel ς)}

/-- Who has the right to dial and comes to a point keeps it, and what is cached fits there. -/
theorem Turn.guarded (h : Turn d id name a p p' cache channels)
    (hr : id ∈ d.cache.queue name → p = .queued ∨ d.cache.holds name id = true)
    (hf : id ∈ d.cache.queue name → p.Fits (d.cache.find? name)) (hid : id ∈ cache.queue name) :
    (p' = .queued ∨ cache.holds name id = true) ∧ p'.Fits (cache.find? name) := by
  have left {P : Prop} (hid : id ∈ (d.cache.leave name id).queue name) : P :=
    absurd rfl (((Cache.mem_queue_leave ..).1 hid).2 rfl)
  cases h with
  | find hi => exact ⟨.inr ((hr hid).resolve_left nofun), fun k hk => by rw [hi] at hk; cases hk; rfl⟩
  | serve => exact left hid
  | condemn => exact ⟨.inr ((hr hid).resolve_left nofun), hf hid⟩
  | evict =>
    refine ⟨.inr ((hr hid).resolve_left nofun), ?_⟩
    rw [Cache.find?_erase, if_pos rfl]; rfl
  | begin hv hh =>
    refine ⟨.inr hh, ?_⟩
    cases hv with
    | absent hn => exact hn
    | @replaced i hne =>
      cases hk : d.cache.find? name with
      | none => rfl
      | some k => exact absurd (hk.trans (congrArg some (hf hid k hk))) hne
    | closed => exact hf hid
  | miss hv hh =>
    refine ⟨?_, trivial⟩
    rcases hr hid with hq | hq
    · cases hv <;> cases hq
    · rw [hh] at hq; cases hq
  | join => exact ⟨.inl rfl, trivial⟩
  | rise hh => exact ⟨.inr hh, trivial⟩
  | bring => exact left hid
  | fail => exact left hid

/-- What a turn does to the entry of its name. -/
theorem Turn.find?_own (h : Turn d id name a p p' cache channels) :
    cache.find? name = d.cache.find? name ∨ cache.find? name = none ∨ p = .dialing := by
  cases h with
  | evict => exact .inr (.inl (by rw [Cache.find?_erase, if_pos rfl]))
  | bring | fail => exact .inr (.inr rfl)
  | _ => exact .inl rfl

/-- A turn leaves the entries as they are, takes one out into the hand of the caller, or caches the
next channel. -/
theorem Turn.entry_cases (h : Turn d id name a p p' cache channels) :
    ((∀ m, cache.find? m = d.cache.find? m) ∧ ∀ i, p' ≠ .closing i) ∨
    (∃ i, p = .evicting i ∧ p' = .closing i ∧ a = .go id ∧ d.cache.find? name = some i ∧
      cache = d.cache.erase name ∧ channels = d.channels) ∨
    (∃ channel, p = .dialing ∧ p' = .served d.channels.length ∧ a = .answer id (.ok channel) ∧
      channels = d.channels ++ [channel] ∧
      ∀ m, cache.find? m = if m = name then some d.channels.length else d.cache.find? m) := by
  cases h with
  | evict hf => exact .inr (.inl ⟨_, rfl, rfl, rfl, hf, rfl, rfl⟩)
  | bring channel =>
    refine .inr (.inr ⟨channel, rfl, rfl, rfl, rfl, fun m => ?_⟩)
    rw [Cache.find?_leave, Cache.find?_insert]
  | _ => exact .inl ⟨fun _ => rfl, nofun⟩

end Turn

theorem Guarded.turn (h : Guarded d) (ho : Orderly d) {id : Nat} {c : Caller}
    (hc : d.caller? id = some c) {p : Progress} {cache : Cache} {channels : List (Channel ς)}
    (ht : Turn d id c.name a c.progress p cache channels) :
    Guarded (d.turned id p cache channels) := by
  have own (hid : id ∈ cache.queue c.name) := ht.guarded (h.risen hc) (h.fits hc) hid
  have old {j : Nat} {m : String} (hjd : j ≠ id) (hj : j ∈ cache.queue m) : j ∈ d.cache.queue m :=
    (ht.mem_queue hj).elim And.left fun ⟨_, he, _⟩ => absurd he hjd
  constructor
  · intro j e hj hq
    rw [caller?_turned hc] at hj
    split at hj
    · rename_i hjd; subst hjd; cases hj; exact (own hq).1
    · rename_i hjd
      exact (h.risen hj (old hjd hq)).imp_right (ht.others hjd e.name).2
  · intro j e hj hq
    rw [caller?_turned hc] at hj
    split at hj
    · rename_i hjd; subst hjd; cases hj; exact (own hq).2
    · rename_i hjd
      have hfits : e.progress.Fits (d.cache.find? e.name) := h.fits hj (old hjd hq)
      show e.progress.Fits (cache.find? e.name)
      by_cases hn : e.name = c.name
      · rcases ht.find?_own with hf | hf | hp
        · rw [hn, hf, ← hn]; exact hfits
        · rw [hn, hf]; exact e.progress.fits_none
        -- the one who dials has the right to, so the other one waits
        · rcases h.risen hj (old hjd hq) with hw | hh
          · rw [hw]; trivial
          · exact absurd (Cache.holds_unique _ _ (ho.dialing hc hp) (hn ▸ hh)) hjd
      · rw [ht.find?_other hn]; exact hfits

theorem Guarded.move (h : Guarded d) (ho : Orderly d) (hm : Move d a notices d') : Guarded d' := by
  cases hm with
  | stay => exact h
  | @enter id name hid =>
    constructor
    all_goals
      intro j c hj hq
      rw [caller?_enter d hid] at hj
      split at hj
    · rename_i hjd
      obtain ⟨e, he, -⟩ := ho.member hq
      rw [hjd, hid] at he; cases he
    · exact h.risen hj hq
    · cases hj; trivial
    · exact h.fits hj hq
  | turn hc ht => exact h.turn ho hc ht
  | drift | close => exact ⟨h.risen, h.fits⟩
  | takeOut m =>
    refine ⟨h.risen, fun {j e} hj hq => ?_⟩
    show e.progress.Fits ((d.cache.erase m).find? e.name)
    rw [Cache.find?_erase]
    split
    · exact e.progress.fits_none
    · exact h.fits hj hq

theorem guarded_empty : Guarded ({} : Desk ς) := ⟨nofun, nofun⟩

/-- A dial ends at a vacant name. -/
theorem Guarded.vacant (h : Guarded d) (ho : Orderly d) {id : Nat} {c : Caller}
    (hc : d.caller? id = some c) (hp : c.progress = .dialing) : d.cache.find? c.name = none := by
  have hfits := h.fits hc (Cache.mem_queue_of_holds _ _ (ho.dialing hc hp))
  rw [hp] at hfits
  exact hfits

end Desk

end Muster.Client
