/-
Who has the stream of a subchannel, among all who work on a channel, and what the subchannel is like
then. A turn changes a subchannel in one of a few ways, by what it has the stream for before and after,
and may begin to shut one down besides; so one task at most has the stream, and while nobody has it,
the state tells whether there is one.
-/
import Muster.Proofs.Channel.Closing
import Muster.Proofs.Channel.Members
import Muster.Proofs.Channel.Settled

namespace Muster.Channel

variable {ς : Type}

/-! ## Between two waits -/

namespace Task

/-- What a task has the stream of a subchannel for. -/
def grip (i : Nat) : Task → Option Grip
  | connecting _ _ busy => if i ∈ busy then some .dial else none
  | dialing _ j => if i = j then some .dial else none
  | exchanging _ j => if i = j then some .exchange else none
  | _ => none

theorem holds_eq (i : Nat) (k : Task) : k.holds i = (k.grip i).isSome := by
  cases k with
  | connecting call waiting busy =>
    simp only [holds, grip]
    split <;> simp_all
  | dialing call j | exchanging call j =>
    simp only [holds, grip]
    split <;> simp_all
  | updating | dropping | reconnecting | queued | closing | ended => rfl

theorem grip_eq_none {i : Nat} {k : Task} : k.grip i = none ↔ k.holds i = false := by
  rw [holds_eq, Option.isSome_eq_false_iff, Option.isNone_iff_eq_none]

theorem grip_waiting (i : Nat) (call : Option Call) (waiting : List Nat) :
    (connecting call waiting []).grip i = none := by
  simp only [grip, List.not_mem_nil, if_false]

/-- Nobody waits twice for one connect. -/
def Single : Task → Prop
  | connecting _ _ busy => busy.Nodup
  | _ => True

end Task

/-- A turn that comes to rest with the streams that `k` has, and has begun to shut down what is first
in hand. -/
structure Comes (c : Channel ς) (k : Task) (turn : Channel ς × Task) : Prop where
  grip : ∀ i, turn.2.grip i = k.grip i
  single : k.Single → turn.2.Single
  sub : ∀ i, turn.1.subchannel? i = (c.subchannel? i).map fun sub =>
    if turn.2.hands.head? = some i then sub.beginShutdown else sub

namespace Comes

variable {c c' : Channel ς} {k : Task} {turn : Channel ς × Task}

/-- Nothing happens but that somebody waits now, or has ended. -/
theorem waits (hsub : c'.created = c.created) (hh : k.hands = []) : Comes c k (c', k) := by
  refine ⟨fun _ => rfl, id, fun i => ?_⟩
  have hid : (fun sub : Subchannel ς => if k.hands.head? = some i then sub.beginShutdown else sub) =
      id := by
    funext sub
    rw [hh]
    exact if_neg nofun
  show c'.created[i]? = (c.created[i]?).map _
  rw [hsub, hid, Option.map_id, id]

theorem after (h : Comes c' k turn) (hsub : c'.created = c.created) : Comes c k turn := by
  refine ⟨h.grip, h.single, fun i => ?_⟩
  rw [h.sub]
  show (c'.created[i]?).map _ = (c.created[i]?).map _
  rw [hsub]

/-- Somebody without a stream waits for something else than a connect. -/
theorem idle {r : Option (Except Fault Json.Value)} (h : Comes c k turn) (hk : ∀ i, k.grip i = none)
    (hs : k.Single) : Comes c (.ended r) turn :=
  ⟨fun i => (h.grip i).trans (hk i), fun _ => h.single hs, h.sub⟩

theorem pickAgain (call : Call) (c : Channel ς) :
    Comes c (.ended none) (Task.pickAgain call c) := by
  unfold Task.pickAgain
  have hnext : c.next.2.created = c.created := rfl
  split
  all_goals
    rename_i heq
    rw [heq] at hnext
    exact (waits hnext rfl).idle (fun _ => rfl) trivial

theorem attempt (call : Call) (c : Channel ς) : Comes c (.ended none) (Task.attempt call c) := by
  unfold Task.attempt
  split
  · exact (waits rfl rfl).idle (fun _ => rfl) trivial
  · have hnext : c.next.2.created = c.created := rfl
    split
    · rename_i heq
      rw [heq] at hnext
      exact (waits hnext rfl).idle (fun _ => rfl) trivial
    · rename_i c' heq
      rw [heq] at hnext
      split
      · exact (pickAgain _ c').after hnext
      · exact (waits hnext rfl).idle (fun _ => rfl) trivial

theorem failed (call : Call) (f : Fault) (c : Channel ς) :
    Comes c (.ended none) (Task.failed call f c) := by
  unfold Task.failed
  split
  · exact (attempt _ c.rotate).after rfl
  · exact (waits rfl rfl).idle (fun _ => rfl) trivial

theorem join (call : Option Call) (waiting busy : List Nat) (c : Channel ς) :
    Comes c (.connecting call waiting busy) (Task.join call waiting busy c) := by
  unfold Task.join
  split
  · -- nothing is busy any more, so this is as good as the end
    have hend {turn : Channel ς × Task} (h : Comes c (.ended none) turn) :
        Comes c (.connecting call [] []) turn :=
      ⟨fun i => (h.grip i).trans (Task.grip_waiting i call []).symm, fun _ => h.single trivial, h.sub⟩
    split
    · exact hend (waits rfl rfl)
    · exact hend ((pickAgain _ c.rotate).after rfl)
  · exact waits rfl rfl

/-- What is first in hand begins to be shut down. -/
theorem hand {i : Nat} (hh : k.hands.head? = some i) (hk : ∀ j, k.grip j = none) (hs : k.Single) :
    Comes c (.ended none) (c.update i Subchannel.beginShutdown, k) := by
  refine ⟨hk, fun _ => hs, fun j => ?_⟩
  show (c.update i Subchannel.beginShutdown).subchannel? j = _
  rw [subchannel?_update, hh]
  by_cases hji : j = i
  · rw [if_pos hji, hji]
    simp
  · rw [if_neg hji]
    simp [Ne.symm hji]

theorem drop (stale pending : List Nat) (c : Channel ς) :
    Comes c (.ended none) (Task.drop stale pending c) := by
  cases stale with
  | nil => exact (join none pending [] c).idle (Task.grip_waiting · none pending) List.nodup_nil
  | cons i stale => exact hand rfl (fun _ => rfl) trivial

theorem shut (is : List Nat) (c : Channel ς) : Comes c (.ended none) (Task.shut is c) := by
  cases is with
  | nil => exact waits rfl rfl
  | cons i is => exact hand rfl (fun _ => rfl) trivial

end Comes

/-! ## After a wait -/

/-- How a turn deals with the subchannels: with those that are there, and with those it creates. -/
structure Deals (free : Nat → Prop) (c : Channel ς) (old : Task) (turn : Channel ς × Task) :
    Prop where
  known : ∀ {i sub}, c.subchannel? i = some sub →
    ∃ sub', Change (free i) (old.grip i) sub (turn.2.grip i) sub' ∧ turn.1.subchannel? i =
      some (if turn.2.hands.head? = some i then sub'.beginShutdown else sub')
  fresh : ∀ {i sub}, c.subchannel? i = none → turn.1.subchannel? i = some sub →
    ∃ addr, sub = { addr }
  reach : ∀ {i}, c.subchannel? i = none → old.grip i = none → turn.2.grip i = none
  single : old.Single → turn.2.Single

namespace Comes

variable {free : Nat → Prop} {c c' : Channel ς} {old k : Task} {turn : Channel ς × Task}

/-- The turn of somebody who leaves the subchannels alone. -/
theorem deals (h : Comes c k turn) (hgrip : ∀ i, k.grip i = old.grip i)
    (hs : old.Single → k.Single) : Deals free c old turn := by
  refine ⟨fun {i sub} hi => ⟨sub, ?_, ?_⟩, fun {i sub} hi hsub => ?_, fun {i} _ hold => ?_,
    fun ho => h.single (hs ho)⟩
  · rw [h.grip, hgrip]; exact .stay
  · rw [h.sub, hi]; rfl
  · rw [h.sub, hi] at hsub; cases hsub
  · rw [h.grip, hgrip]; exact hold

/-- The turn of somebody who works on one subchannel. -/
theorem deals_one {i : Nat} {f : Subchannel ς → Subchannel ς} (h : Comes (c.update i f) k turn)
    (hchange : ∀ sub, c.subchannel? i = some sub →
      Change (free i) (old.grip i) sub (k.grip i) (f sub))
    (hothers : ∀ j, j ≠ i → k.grip j = old.grip j)
    (hreach : c.subchannel? i = none → old.grip i = none → k.grip i = none)
    (hs : old.Single → k.Single) : Deals free c old turn := by
  refine ⟨fun {j sub} hj => ?_, fun {j sub} hj hsub => ?_, fun {j} hj hold => ?_,
    fun ho => h.single (hs ho)⟩
  · rw [h.grip, h.sub, subchannel?_update, hj]
    by_cases hji : j = i
    · subst hji
      rw [if_pos rfl]
      exact ⟨f sub, hchange sub hj, rfl⟩
    · rw [if_neg hji, hothers j hji]
      exact ⟨sub, .stay, rfl⟩
  · rw [h.sub, subchannel?_update, hj] at hsub
    by_cases hji : j = i
    · rw [if_pos hji] at hsub; cases hsub
    · rw [if_neg hji] at hsub; cases hsub
  · rw [h.grip]
    by_cases hji : j = i
    · subst hji; exact hreach hj hold
    · rw [hothers j hji]; exact hold

end Comes

namespace Task

variable {free : Nat → Prop} {c : Channel ς} {i : Nat} {k : Task} {turn : Channel ς × Task}

theorem Locked.deals (h : Locked c k turn) (hset : ∀ set, k ≠ .updating set) :
    Deals free c k turn := by
  cases h with
  | update set => exact absurd rfl (hset set)
  | vain => exact (Comes.pickAgain _ c).deals (fun _ => rfl) id
  | reconnect =>
    exact (Comes.waits rfl rfl).deals (fun i => grip_waiting i _ _) fun _ => List.nodup_nil

theorem Streamed.deals (h : Streamed i c k turn) (hfree : free i) (hgrip : k.grip i = none)
    (hhead : ∀ {j}, k.hands.head? = some j → c.Shut j) : Deals free c k turn := by
  have shut (hi : k.hands.head? = some i) {sub : Subchannel ς} (hsub : c.subchannel? i = some sub) :
      sub.state = .shutdown := by
    obtain ⟨s, hs, hstate⟩ := hhead hi
    rw [hsub] at hs
    cases hs
    exact hstate
  cases h with
  | drop =>
    exact (Comes.drop _ _ _).deals_one (fun sub hsub => .leave hfree (shut rfl hsub))
      (fun _ _ => rfl) (fun _ _ => rfl) id
  | shut =>
    exact (Comes.shut _ _).deals_one (fun sub hsub => .leave hfree (shut rfl hsub))
      (fun _ _ => rfl) (fun _ _ => rfl) id
  | @dial call waiting busy ha =>
    have hbusy : i ∉ busy := fun hi => by simp [grip, hi] at hgrip
    refine (Comes.waits rfl rfl).deals_one (fun sub hsub => ?_) (fun j hj => ?_) (fun hi => ?_)
      fun hs => List.nodup_cons.2 ⟨hbusy, hs⟩
    · rw [hsub, Option.map_some, Option.some_inj] at ha
      rw [hgrip, grip, if_pos List.mem_cons_self]
      exact .dial hfree ha
    · simp [grip, hj]
    · rw [hi] at ha; cases ha
  | pass => exact (Comes.join _ _ _ c).deals (fun _ => rfl) id
  | @dialCall call ha =>
    refine (Comes.waits rfl rfl).deals_one (fun sub hsub => ?_) (fun j hj => ?_) (fun hi => ?_) id
    · rw [hsub, Option.map_some, Option.some_inj] at ha
      rw [hgrip, grip, if_pos rfl]
      exact .dial hfree ha
    · exact if_neg hj
    · rw [hi] at ha; cases ha
  | @exchange call stream ha =>
    have hsame : (c.update i id).created = c.created := List.modify_id ..
    refine (Comes.waits hsame.symm rfl).deals_one (fun sub hsub => ?_) (fun j hj => ?_)
      (fun hi => ?_) id
    · rw [hsub, Option.map_some, Option.some_inj] at ha
      rw [hgrip, grip, if_pos rfl]
      exact .exchange hfree ha
    · exact if_neg hj
    · rw [hi] at ha; cases ha
  | refused => exact (Comes.failed _ _ c).deals (fun _ => rfl) id

theorem Connected.deals {r : Except Fault ς} (h : Connected i c r k turn) (hs : k.Single) :
    Deals free c k turn := by
  have hdialing (call : Call) : (Task.dialing call i).grip i = some .dial := if_pos rfl
  cases h with
  | @join _ call waiting busy hi =>
    have hold : (connecting call waiting busy).grip i = some .dial := if_pos hi
    have hnew : (connecting call waiting (busy.erase i)).grip i = none :=
      if_neg (List.Nodup.not_mem_erase hs)
    refine (Comes.join call waiting (busy.erase i) _).deals_one (fun sub _ => ?_) (fun j hj => ?_)
      (fun _ _ => hnew) fun hs => List.Nodup.erase i hs
    · rw [hold, hnew]; exact .connected r
    · simp only [grip, List.mem_erase_of_ne hj]
  | @exchange stream call =>
    refine (Comes.waits rfl rfl).deals_one (fun sub _ => ?_) (fun j hj => ?_) (fun _ ho => ?_) id
    · rw [hdialing, grip, if_pos rfl]; exact .standing stream
    · exact (if_neg hj).trans (if_neg hj).symm
    · rw [hdialing] at ho; cases ho
  | @failed f call =>
    refine (Comes.failed _ _ _).deals_one (fun sub _ => ?_) (fun j hj => ?_) (fun _ _ => rfl) id
    · rw [hdialing]; exact .connected (.error f)
    · exact (if_neg hj).symm

theorem Answered.deals {r : Except Fault Wire.Response} (h : Answered c r k turn) :
    Deals free c k turn := by
  cases h with
  | @done response call i =>
    refine (Comes.waits rfl rfl).deals_one (i := i) (fun sub _ => ?_) (fun j hj => ?_)
      (fun _ _ => rfl) id
    · rw [grip, if_pos rfl]; exact .answered (.ok response)
    · exact (if_neg hj).symm
  | @failed f call i =>
    refine (Comes.failed _ _ _).deals_one (fun sub _ => ?_) (fun j hj => ?_) (fun _ _ => rfl) id
    · rw [grip, if_pos rfl]; exact .answered (.error f)
    · exact (if_neg hj).symm

end Task

/-- The turn of an update that gets the lock. It creates subchannels, and shuts down none of these. -/
theorem update_deals {free : Nat → Prop} {c : Channel ς} (h : c.Distinct) (set : Addresses) :
    Deals free c (.updating set)
      (Task.drop (c.replace set.1).2.stale (c.replace set.1).2.pending (c.replace set.1).1) := by
  have hplaced := replace_placed h set.2
  generalize c.replace set.1 = r at *
  have hcomes : Comes r.1 (.ended none) (Task.drop r.2.stale r.2.pending r.1) := .drop _ _ _
  have hrests : Rests (fun _ => False) r.1 r.2.stale [] (Task.drop r.2.stale r.2.pending r.1) :=
    .drop _ _ _
  have hhands := hrests.hands
  generalize Task.drop r.2.stale r.2.pending r.1 = turn at *
  refine ⟨fun {i sub} hi => ⟨sub, ?_, ?_⟩, fun {i sub} hi hsub => ?_, fun _ _ => hcomes.grip _,
    fun _ => hcomes.single trivial⟩
  · rw [hcomes.grip]; exact .stay
  · rw [hcomes.sub, hplaced.known hi]; rfl
  · have hge : c.created.length ≤ i := List.getElem?_eq_none_iff.1 hi
    have hhead : turn.2.hands.head? ≠ some i := fun hh => by
      rw [hhands] at hh
      exact absurd (h.range (hplaced.stale (List.mem_of_mem_head? hh)).1) (Nat.not_lt.2 hge)
    obtain ⟨names, hnew⟩ := hplaced.created
    obtain ⟨sub', hsub', rfl⟩ := Option.map_eq_some_iff.1 ((hcomes.sub i).symm.trans hsub)
    have hmem : r.1.created[i]? = some sub' := hsub'
    rw [hnew, List.getElem?_append_right hge, List.getElem?_map] at hmem
    obtain ⟨addr, -, rfl⟩ := Option.map_eq_some_iff.1 hmem
    exact ⟨addr, if_neg hhead⟩

namespace Traffic

variable {s s' : Traffic ς} {a : Act ς} {t : Nat} {old : Task} {turn : Channel ς × Task}

/-! ## Turns -/

theorem grip_of_free {i : Nat} (h : s.free i = true) (t : Nat) : (s.task t).grip i = none :=
  Task.grip_eq_none.2 (free_iff.1 h t)

theorem Turn.deals (h : Turn s a t old turn) (hk : Kept s) (hd : s.channel.Distinct)
    (hold : s.task t = old) (hs : old.Single) : Deals (s.free · = true) s.channel old turn := by
  subst hold
  have hhead {i : Nat} (hi : (s.task t).hands.head? = some i) : s.channel.Shut i := hk.head hi
  generalize hk : s.task t = old at *
  cases h with
  | update set =>
    unfold beginUpdate
    split
    · exact (Comes.waits rfl rfl).deals (fun _ => rfl) id
    · exact (Comes.waits rfl rfl).deals (fun _ => rfl) id
  | invoke r =>
    unfold beginInvoke
    split
    · exact (Comes.waits rfl rfl).deals (fun _ => rfl) id
    · exact (Comes.attempt _ s.channel).deals (fun _ => rfl) id
  | close =>
    unfold beginClose
    split
    · exact (Comes.waits rfl rfl).deals (fun _ => rfl) id
    · have hcomes : Comes s.channel (.ended none)
          (Task.shut s.channel.present { s.channel with closed := true, members := [] }) :=
        (Comes.shut _ _).after rfl
      exact hcomes.deals (fun _ => rfl) id
  | lock _ _ hturn =>
    cases Task.locked_of_lock? hturn with
    | update set => exact update_deals hd set
    | vain hnone => exact (Task.Locked.vain hnone).deals nofun
    | reconnect hsome => exact (Task.Locked.reconnect hsome).deals nofun
  | @stream _ i _ _ _ hfree hturn =>
    exact (Task.streamed_of_stream? hturn).deals hfree (hk ▸ grip_of_free hfree t) hhead
  | connected _ hturn => exact (Task.connected_of_connected? hturn).deals hs
  | answered _ hturn => exact (Task.answered_of_answered? hturn).deals

/-! ## Who has the stream -/

/-- One task at most has the stream of a subchannel, which is what that task expects, and settled if
nobody has the stream. -/
structure Fitting (s : Traffic ς) : Prop where
  single : ∀ t, (s.task t).Single
  reach : ∀ {t i}, s.channel.subchannel? i = none → (s.task t).grip i = none
  alone : ∀ {t u i}, (s.task t).grip i ≠ none → (s.task u).grip i ≠ none → t = u
  fits : ∀ {t i sub}, s.channel.subchannel? i = some sub →
    (∀ u, u ≠ t → (s.task u).grip i = none) → sub.Fits ((s.task t).grip i)

namespace Fitting

/-- Nobody who has nothing of a subchannel gets its stream while somebody else has it. -/
theorem others (h : Fitting s) (hdeals : Deals (s.free · = true) s.channel (s.task t) turn) {u i : Nat}
    (hut : u ≠ t) (hu : (s.task u).grip i ≠ none) :
    (s.task t).grip i = none ∧ turn.2.grip i = none ∧ s.free i ≠ true := by
  have hold : (s.task t).grip i = none := by
    by_contra ht
    exact hut (h.alone hu ht)
  have hfree : s.free i ≠ true := fun hf => hu (grip_of_free hf u)
  refine ⟨hold, ?_, hfree⟩
  rcases hi : s.channel.subchannel? i with _ | sub
  · exact absurd (h.reach hi) hu
  · obtain ⟨sub', hchange, -⟩ := hdeals.known hi
    rw [hold] at hchange
    exact (hchange.aside hfree).1

theorem turned (h : Fitting s) (hdeals : Deals (s.free · = true) s.channel (s.task t) turn)
    (ht : Turned s t turn s') : Fitting s' := by
  have hself : s'.task t = turn.2 := by rw [ht.task, if_pos rfl]
  have hother {u : Nat} (hu : u ≠ t) : s'.task u = s.task u := by rw [ht.task, if_neg hu]
  refine ⟨fun u => ?_, fun {u i} hi => ?_, fun {u v i} hu hv => ?_, fun {u i sub} hi hall => ?_⟩
  · by_cases hu : u = t
    · rw [hu, hself]; exact hdeals.single (h.single t)
    · rw [hother hu]; exact h.single u
  · have hnone : s.channel.subchannel? i = none := by
      rcases hs : s.channel.subchannel? i with _ | sub
      · rfl
      · obtain ⟨sub', -, hsub'⟩ := hdeals.known hs
        rw [ht.channel, hsub'] at hi; cases hi
    by_cases hu : u = t
    · rw [hu, hself]; exact hdeals.reach hnone (h.reach hnone)
    · rw [hother hu]; exact h.reach hnone
  · by_cases hut : u = t <;> by_cases hvt : v = t
    · rw [hut, hvt]
    · rw [hother hvt] at hv
      rw [hut, hself] at hu
      exact absurd (h.others hdeals hvt hv).2.1 hu
    · rw [hother hut] at hu
      rw [hvt, hself] at hv
      exact absurd (h.others hdeals hut hu).2.1 hv
    · rw [hother hut] at hu
      rw [hother hvt] at hv
      exact h.alone hu hv
  · rw [ht.channel] at hi
    rcases hs : s.channel.subchannel? i with _ | old
    · -- a new one, of which nobody has the stream
      obtain ⟨addr, rfl⟩ := hdeals.fresh hs hi
      have hgrip : (s'.task u).grip i = none := by
        by_cases hu : u = t
        · rw [hu, hself]; exact hdeals.reach hs (h.reach hs)
        · rw [hother hu]; exact h.reach hs
      rw [hgrip]
      exact Subchannel.settled_new addr
    · obtain ⟨sub', hchange, hsub'⟩ := hdeals.known hs
      rw [hsub'] at hi
      cases hi
      -- to begin to shut down does not matter to anybody
      suffices hfits : sub'.Fits ((s'.task u).grip i) by
        split
        · exact hfits.beginShutdown
        · exact hfits
      have worked (hall : ∀ v, v ≠ t → (s.task v).grip i = none) : sub'.Fits (turn.2.grip i) :=
        hchange.fits (h.fits hs hall)
      by_cases hu : u = t
      · rw [hu, hself]
        exact worked fun v hv => hother hv ▸ hall v (hu ▸ hv)
      · rw [hother hu]
        by_cases hgrip : (s.task u).grip i = none
        · have hself' : turn.2.grip i = none := hself ▸ hall t (Ne.symm hu)
          rw [hgrip, ← hself']
          refine worked fun v hv => ?_
          by_cases hvu : v = u
          · rw [hvu]; exact hgrip
          · exact hother hv ▸ hall v hvu
        · obtain ⟨hold, -, hfree⟩ := h.others hdeals hu hgrip
          rw [hold] at hchange
          rw [(hchange.aside hfree).2]
          refine h.fits hs fun v hv => ?_
          by_cases hvt : v = t
          · rw [hvt]; exact hold
          · exact hother hvt ▸ hall v hv

end Fitting

/-! ## Who is a member -/

/-- What a turn does to the members. -/
structure Seats (c : Channel ς) (old : Task) (turn : Channel ς × Task) : Prop where
  closed : turn.1.closed = false → c.closed = false
  source : ∀ {a i}, (a, i) ∈ turn.1.members → (a, i) ∈ c.members ∨
    c.created.length ≤ i ∧ turn.1.subchannel? i = some { addr := a }
  placed : turn.1.present.Nodup
  apart : turn.1.closed = false → ∀ {i}, i ∈ turn.2.hands →
    i ∈ old.hands ∧ turn.1.members = c.members ∨ i ∉ turn.1.present

theorem Outcome.seats (h : Outcome s a old turn) (hd : s.channel.Distinct)
    (hdeals : Deals (s.free · = true) s.channel old turn) : Seats s.channel old turn := by
  cases h with
  | plain _ h =>
    have hf := h.rests.follows
    refine ⟨fun hc => hf.closed.symm.trans hc, fun hm => .inl (hf.members ▸ hm), ?_,
      fun _ {_} hi => .inl ⟨h.sub (h.rests.hands ▸ hi), hf.members⟩⟩
    unfold present
    rw [hf.members]
    exact hd.placed
  | @update t set =>
    have hclosed := (replace_spec hd.named set.1).closed
    obtain ⟨-, ⟨names, hnew⟩, -, hsource, hplaced, hstale, -⟩ := replace_placed hd set.2
    generalize s.channel.replace set.1 = r at *
    have hrests : Rests (fun _ => False) r.1 r.2.stale [] (Task.drop r.2.stale r.2.pending r.1) :=
      .drop _ _ _
    obtain ⟨hf, hh, -, -⟩ := hrests
    have hcomes : Comes r.1 (.ended none) (Task.drop r.2.stale r.2.pending r.1) := .drop _ _ _
    generalize Task.drop r.2.stale r.2.pending r.1 = turn at *
    have hpresent : turn.1.present = r.1.present := by
      unfold present
      rw [hf.members]
    have hapart {i : Nat} (hi : i ∈ turn.2.hands) : i ∉ r.1.present := (hstale (hh ▸ hi)).2
    refine ⟨fun hc => (hf.closed.trans hclosed).symm.trans hc, fun {b i} hm => ?_,
      hpresent ▸ hplaced, fun _ {i} hi => .inr (hpresent ▸ hapart hi)⟩
    rw [hf.members] at hm
    refine (hsource hm).imp_right fun hnew => ⟨hnew.2.1, ?_⟩
    have hhead : turn.2.hands.head? ≠ some i :=
      fun hh => hapart (List.mem_of_mem_head? hh) (List.mem_map_of_mem hm)
    rw [hcomes.sub, hnew.2.2, Option.map_some, if_neg hhead]
  | close =>
    have hrests : Rests (fun _ => False) { s.channel with closed := true, members := [] }
        s.channel.present [] (Task.shut s.channel.present
          { s.channel with closed := true, members := [] }) := .shut s.channel.present _
    have hf := hrests.follows
    generalize Task.shut s.channel.present _ = turn at *
    have hc : turn.1.closed = true := hf.closed
    have hm : turn.1.members = [] := hf.members
    refine ⟨fun hc' => ?_, fun h => ?_, ?_, fun hc' => ?_⟩
    · rw [hc] at hc'; cases hc'
    · rw [hm] at h; cases h
    · unfold present
      rw [hm]
      exact List.nodup_nil
    · rw [hc] at hc'; cases hc'

/-- The members have the subchannels of their addresses, and unless the channel is closed, none of them
is shut down or about to be. -/
structure Seated (s : Traffic ς) : Prop where
  placed : s.channel.present.Nodup
  addr : ∀ {a i}, (a, i) ∈ s.channel.members → ∃ sub, s.channel.subchannel? i = some sub ∧ sub.addr = a
  opened : s.channel.closed = false → ∀ {i}, i ∈ s.channel.present → ¬ s.channel.Shut i
  apart : s.channel.closed = false → ∀ {t i}, i ∈ (s.task t).hands → i ∉ s.channel.present

theorem Seated.turned (h : Seated s) (hk : Kept s) (hs : Seats s.channel (s.task t) turn)
    (hdeals : Deals (s.free · = true) s.channel (s.task t) turn) (ht : Turned s t turn s') :
    Seated s' := by
  have hself : s'.task t = turn.2 := by rw [ht.task, if_pos rfl]
  have hother {u : Nat} (hu : u ≠ t) : s'.task u = s.task u := by rw [ht.task, if_neg hu]
  -- a subchannel in hand has been a member, and a new member has not
  have happart (hopen : turn.1.closed = false) {u i : Nat} (hi : i ∈ (s'.task u).hands) :
      i ∉ turn.1.present := by
    have hstay (v : Nat) (hv : i ∈ (s.task v).hands) : i ∉ turn.1.present := by
      rintro hp
      obtain ⟨⟨a, j⟩, hm, rfl⟩ := List.mem_map.1 hp
      rcases hs.source hm with hold | ⟨hle, -⟩
      · exact h.apart (hs.closed hopen) hv (List.mem_map_of_mem hold)
      · exact absurd (hk.reach hv) (Nat.not_lt.2 hle)
    by_cases hu : u = t
    · rw [hu, hself] at hi
      exact (hs.apart hopen hi).elim (fun hold => hstay t hold.1) id
    · rw [hother hu] at hi
      exact hstay u hi
  refine ⟨ht.channel ▸ hs.placed, fun {a i} hm => ?_, fun hopen {i} hp hshut => ?_, fun hopen {u i} hi => ?_⟩
  all_goals rw [ht.channel] at *
  · rcases hs.source hm with hold | ⟨-, hsub⟩
    · obtain ⟨sub, hsub, rfl⟩ := h.addr hold
      obtain ⟨sub', hchange, hsub'⟩ := hdeals.known hsub
      refine ⟨_, hsub', ?_⟩
      split
      · exact hchange.addr
      · exact hchange.addr
    · exact ⟨_, hsub, rfl⟩
  · obtain ⟨sub', hsub', hstate⟩ := hshut
    obtain ⟨⟨a, j⟩, hm, rfl⟩ := List.mem_map.1 hp
    rcases hs.source hm with hold | ⟨-, hsub⟩
    · obtain ⟨sub, hsub, -⟩ := h.addr hold
      obtain ⟨sub₁, hchange, hturned⟩ := hdeals.known hsub
      have hhead : turn.2.hands.head? ≠ some j :=
        fun hh => happart hopen (hself ▸ List.mem_of_mem_head? hh) hp
      rw [hturned, if_neg hhead] at hsub'
      cases hsub'
      have hnot : sub.state ≠ .shutdown :=
        fun hs' => h.opened (hs.closed hopen) (List.mem_map_of_mem hold) ⟨sub, hsub, hs'⟩
      exact hchange.opened hnot hstate
    · rw [hsub] at hsub'
      cases hsub'
      cases hstate
  · exact happart hopen hi

/-! ## Along a run -/

/-- All of this holds together. -/
structure Sound (s : Traffic ς) : Prop where
  kept : Kept s
  seated : Seated s
  fitting : Fitting s

theorem Sound.distinct (h : Sound s) : s.channel.Distinct :=
  ⟨h.kept.named, h.seated.placed, h.kept.range⟩

theorem Sound.act (h : Sound s) (a : Act ς) : Sound (s.act a) := by
  rcases act_cases s a with ⟨hs, -⟩ | ⟨t, old, turn, hturn, rfl, ht⟩
  · rw [hs]; exact h
  · have ho := hturn.outcome h.kept.head
    have hdeals := hturn.deals h.kept h.distinct rfl (h.fitting.single t)
    exact ⟨h.kept.turned ho ht, h.seated.turned h.kept (ho.seats h.distinct hdeals) hdeals ht,
      h.fitting.turned hdeals ht⟩

theorem Sound.run (h : Sound s) (acts : List (Act ς)) : Sound (s.run acts) := by
  induction acts using List.reverseRecOn with
  | nil => exact h
  | append_singleton acts a ih => rw [run_concat]; exact ih.act a

theorem Fresh.sound (h : s.Fresh) : Sound s := by
  have hno (t : Nat) : s.task t = .ended none := by
    unfold task
    rw [h.tasks]; rfl
  have hsub (i : Nat) : s.channel.subchannel? i = none := by
    unfold subchannel?
    rw [h.created]; rfl
  have hpresent : s.channel.present = [] := by
    unfold present
    rw [h.members]; rfl
  refine ⟨h.kept, ⟨?_, fun hm => ?_, fun _ {i} hi => ?_, fun _ {t i} hi => ?_⟩,
    ⟨fun t => ?_, fun _ => ?_, fun ht => ?_, fun hi => ?_⟩⟩
  · rw [hpresent]; exact List.nodup_nil
  · rw [h.members] at hm; cases hm
  · rw [hpresent] at hi; cases hi
  · rw [hno] at hi; cases hi
  · rw [hno]; trivial
  · rw [hno]; rfl
  · rw [hno] at ht; exact absurd rfl ht
  · rw [hsub] at hi; cases hi

end Traffic

end Muster.Channel
