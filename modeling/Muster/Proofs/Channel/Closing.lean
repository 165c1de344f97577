/-
What a closed channel keeps. Whoever closes it takes all its members away and shuts them down one
after another, while updates and calls still under way go on. Every subchannel that was ever created
is a member, or in the hands of somebody who shuts it down, or shut down without a stream (`Kept`);
so when all have come to their end, nothing is left but what an address set has brought that got the
lock after the closing.
-/
import Mathlib.Data.List.Induction
import Muster.Proofs.Channel.Subchannels
import Muster.Proofs.Channel.Turns

namespace Muster.Channel

variable {ς : Type}

namespace Task

/-- The subchannels that a task has taken away from the channel and shuts down. The first one is shut
down already. -/
def hands : Task → List Nat
  | dropping i stale _ => i :: stale
  | closing i rest => i :: rest
  | _ => []

def isClosing : Task → Bool
  | closing .. => true
  | _ => false

end Task

/-! ## Between two waits -/

/-- A turn that comes to rest with subchannels in hand, and with streams among some. -/
structure Rests (held : Nat → Prop) (c : Channel ς) (is busy : List Nat) (turn : Channel ς × Task) :
    Prop where
  follows : Follows held c turn.1
  hands : turn.2.hands = is
  head : ∀ {i}, is.head? = some i → i < c.created.length → turn.1.Shut i
  holds : ∀ {i}, turn.2.holds i = true → i ∈ busy

namespace Rests

variable {held : Nat → Prop} {c c' : Channel ς} {is busy : List Nat} {turn : Channel ς × Task}

theorem after (g : Rests held c' is busy turn) (h : Follows held c c') : Rests held c is busy turn :=
  ⟨h.trans g.follows, g.hands, fun hi hlt => g.head hi (h.length ▸ hlt), g.holds⟩

/-- Nothing happens but that somebody waits now, or has ended. -/
theorem waits (c : Channel ς) (busy : List Nat) {k : Task} (hh : k.hands = [])
    (hk : ∀ i, k.holds i = true → i ∈ busy) : Rests held c [] busy (c, k) :=
  ⟨.refl c, hh, nofun, hk _⟩

theorem ended (c : Channel ς) (busy : List Nat) (r : Option (Except Fault Json.Value)) :
    Rests held c [] busy (c, .ended r) :=
  waits c busy rfl nofun

theorem pickAgain (call : Call) (c : Channel ς) : Rests held c [] busy (Task.pickAgain call c) := by
  unfold Task.pickAgain
  have hnext : Follows held c c.next.2 := .next
  split
  · rename_i i c' heq
    rw [heq] at hnext
    exact ⟨hnext, rfl, nofun, nofun⟩
  · rename_i c' heq
    rw [heq] at hnext
    exact (ended c' busy _).after hnext

theorem attempt (call : Call) (c : Channel ς) : Rests held c [] busy (Task.attempt call c) := by
  unfold Task.attempt
  split
  · exact .ended c busy _
  · have hnext : Follows held c c.next.2 := .next
    split
    · rename_i i c' heq
      rw [heq] at hnext
      exact ⟨hnext, rfl, nofun, nofun⟩
    · rename_i c' heq
      rw [heq] at hnext
      split
      · exact (pickAgain _ c').after hnext
      · exact ⟨hnext, rfl, nofun, nofun⟩

theorem failed (call : Call) (f : Fault) (c : Channel ς) :
    Rests held c [] busy (Task.failed call f c) := by
  unfold Task.failed
  split
  · exact (attempt _ _).after .rotate
  · exact .ended c busy _

theorem join (call : Option Call) (waiting busy : List Nat) (c : Channel ς) :
    Rests held c [] busy (Task.join call waiting busy c) := by
  unfold Task.join
  split
  · split
    · exact (ended _ _ _).after (.trans .rotate .resolved)
    · exact (pickAgain _ _).after .rotate
  · exact ⟨.refl c, rfl, nofun, fun h => by simpa [Task.holds] using h⟩

theorem drop (stale pending : List Nat) (c : Channel ς) :
    Rests held c stale [] (Task.drop stale pending c) := by
  cases stale with
  | nil => exact .join none pending [] c
  | cons i stale => exact ⟨.beginShutdown, rfl, fun h => by cases h; exact shut_beginShutdown, nofun⟩

theorem shut (is : List Nat) (c : Channel ς) : Rests held c is [] (Task.shut is c) := by
  cases is with
  | nil => exact (ended _ _ _).after .rotate
  | cons i is => exact ⟨.beginShutdown, rfl, fun h => by cases h; exact shut_beginShutdown, nofun⟩

end Rests

/-- Whoever closes goes on closing until the rotation is emptied. -/
theorem shut_empties {c : Channel ς} (h : c.closed = true) (is : List Nat) :
    (Task.shut is c).1.rotation.entries = [] ∨ (Task.shut is c).2.isClosing = true := by
  cases is with
  | nil => exact .inl (rotate_closed h)
  | cons i is => exact .inr rfl

/-! ## What a turn does to the subchannels -/

/-- The effect of a turn. A subchannel comes into the task's hands from among the members only, and
out of them only when it is gone. -/
structure Effect (free : Nat → Prop) (c : Channel ς) (old : Task) (turn : Channel ς × Task) :
    Prop where
  length : c.created.length ≤ turn.1.created.length
  shut : ∀ {i}, c.Shut i → turn.1.Shut i
  gone : ∀ {i}, c.Gone i → old.holds i = false → turn.1.Gone i ∧ turn.2.holds i = false
  present : ∀ {i}, i ∈ c.present → i ∈ turn.1.present ∨ i ∈ turn.2.hands
  hands : ∀ {i}, i ∈ old.hands → i ∈ turn.2.hands ∨
    turn.1.Gone i ∧ turn.2.holds i = false ∧ free i
  fresh : ∀ {i}, c.created.length ≤ i → i < turn.1.created.length → i ∈ turn.1.present
  range : ∀ {i}, i ∈ turn.1.present → i ∈ c.present ∨ i < turn.1.created.length
  reach : ∀ {i}, i ∈ turn.2.hands → i ∈ c.present ∨ i ∈ old.hands
  head : ∀ {i}, turn.2.hands.head? = some i → i < c.created.length → turn.1.Shut i
  emptied : turn.1.closed = true →
    (c.closed = true → c.rotation.entries = [] ∨ old.isClosing = true) →
    turn.1.rotation.entries = [] ∨ turn.2.isClosing = true

/-- A turn that puts no address set in place and does not begin to close. -/
structure Plain (free : Nat → Prop) (c : Channel ς) (old : Task) (is busy : List Nat)
    (turn : Channel ς × Task) : Prop where
  rests : Rests (old.holds · = true) c is busy turn
  streams : ∀ {i}, i ∈ busy → old.holds i = true ∨ ¬ c.Gone i
  sub : ∀ {i}, i ∈ is → i ∈ old.hands
  released : ∀ {i}, i ∈ old.hands → i ∈ is ∨ turn.1.Gone i ∧ i ∉ busy ∧ free i
  empties : old.isClosing = true → turn.1.closed = true →
    turn.1.rotation.entries = [] ∨ turn.2.isClosing = true

namespace Plain

variable {free : Nat → Prop} {c : Channel ς} {old : Task} {is busy : List Nat}
  {turn : Channel ς × Task}

/-- The turn of somebody who has nothing in hand. -/
theorem bare (h : Rests (old.holds · = true) c [] busy turn)
    (hbusy : ∀ i ∈ busy, old.holds i = true ∨ ¬ c.Gone i) (hhands : old.hands = [])
    (hclosing : old.isClosing = false) : Plain free c old [] busy turn :=
  ⟨h, fun hi => hbusy _ hi, nofun, fun hi => (by rw [hhands] at hi; cases hi),
    fun hc => (by rw [hclosing] at hc; cases hc)⟩

/-- The turn of somebody who has nothing in hand and waits with no stream afterwards. -/
theorem idle (h : Rests (old.holds · = true) c [] [] turn) (hhands : old.hands = [])
    (hclosing : old.isClosing = false) : Plain free c old [] [] turn :=
  bare h nofun hhands hclosing

/-- The turn of somebody who has waited for the stream of the subchannel that is first in hand. -/
theorem hand {i : Nat} {rest : List Nat}
    (h : Rests (old.holds · = true) (c.update i Subchannel.endShutdown) rest [] turn)
    (hhands : old.hands = i :: rest) (hholds : ∀ j, old.holds j = false) (hshut : c.Shut i)
    (hfree : free i) (hempty : old.isClosing = true → turn.1.closed = true →
      turn.1.rotation.entries = [] ∨ turn.2.isClosing = true) :
    Plain free c old rest [] turn := by
  have hgone : turn.1.Gone i :=
    h.follows.gone (by rw [hholds]; exact Bool.false_ne_true) (gone_endShutdown hshut)
  refine ⟨h.after .endShutdown, nofun, fun {j} hj => ?_, fun {j} hj => ?_, hempty⟩
  · rw [hhands]; exact List.mem_cons_of_mem _ hj
  · rw [hhands] at hj
    rcases List.mem_cons.1 hj with rfl | hj
    · exact .inr ⟨hgone, List.not_mem_nil, hfree⟩
    · exact .inl hj

theorem effect (h : Plain free c old is busy turn) : Effect free c old turn := by
  obtain ⟨⟨hf, hh, hhead, hholds⟩, hbusy, hsub, hreleased, hempties⟩ := h
  have hpresent : turn.1.present = c.present := by
    unfold Channel.present
    rw [hf.members]
  have unheld {i : Nat} (hi : i ∉ busy) : turn.2.holds i = false :=
    Bool.eq_false_iff.2 fun h => hi (hholds h)
  refine ⟨Nat.le_of_eq hf.length.symm, hf.shut, fun {i} hi hold => ⟨?_, ?_⟩, fun hi => ?_,
    fun {i} hi => ?_, fun hle hlt => ?_, fun hi => ?_, fun {i} hi => ?_, fun hi hlt => ?_,
    fun hc hold => ?_⟩
  · exact hf.gone (by rw [hold]; exact Bool.false_ne_true) hi
  · refine unheld fun hb => ?_
    rcases hbusy hb with h | h
    · rw [hold] at h; cases h
    · exact h hi
  · exact .inl (hpresent ▸ hi)
  · rw [hh]
    exact (hreleased hi).imp_right fun ⟨hgone, hb, hfree⟩ => ⟨hgone, unheld hb, hfree⟩
  · exact absurd (hf.length ▸ hlt) (Nat.not_lt.2 hle)
  · exact .inl (hpresent ▸ hi)
  · exact .inr (hsub (hh ▸ hi))
  · exact hhead (hh ▸ hi) hlt
  · have hc' : c.closed = true := hf.closed ▸ hc
    rcases hold hc' with h | h
    · exact .inl (hf.emptied hc' h)
    · exact hempties h hc

end Plain

namespace Task

variable {free : Nat → Prop} {c : Channel ς} {i : Nat} {k : Task} {turn : Channel ς × Task}

/-- A call with the stream of its pick waits for the peer. -/
theorem rests_with (c : Channel ς) {held : Nat → Prop} {call : Call} :
    Rests held c [] [i] (c, .dialing call i) ∧ Rests held c [] [i] (c, .exchanging call i) :=
  ⟨.waits c [i] rfl fun j hj => by simpa [holds] using hj,
    .waits c [i] rfl fun j hj => by simpa [holds] using hj⟩

theorem Streamed.plain (h : Streamed i c k turn)
    (hhead : ∀ {j}, k.hands.head? = some j → c.Shut j) (hfree : free i) :
    ∃ is busy, Plain free c k is busy turn := by
  cases h with
  | @drop stale pending =>
    exact ⟨_, _, .hand (.drop stale pending _) rfl (fun _ => rfl) (hhead rfl) hfree nofun⟩
  | @shut rest =>
    refine ⟨_, _, .hand (.shut rest _) rfl (fun _ => rfl) (hhead rfl) hfree fun _ hc => ?_⟩
    have hf : Follows (fun _ => False) (c.update i Subchannel.endShutdown) _ :=
      (Rests.shut rest _).follows
    exact shut_empties (hf.closed.symm.trans hc) rest
  | @dial call waiting busy hdial =>
    refine ⟨_, i :: busy, .bare ?_ (fun j hj => ?_) rfl rfl⟩
    · exact (Rests.waits _ _ rfl fun j hj => by simpa [holds] using hj).after .beginConnect
    · rcases List.mem_cons.1 hj with rfl | hj
      · exact .inr (not_gone_of_dialing hdial)
      · exact .inl (by simpa [holds] using hj)
  | @pass call waiting busy =>
    refine ⟨_, _, .bare (.join call (waiting.erase i) busy _) (fun j hj => ?_) rfl rfl⟩
    exact .inl (by simpa [holds] using hj)
  | dialCall hdial =>
    refine ⟨_, _, .bare ((rests_with _).1.after .beginConnect) (fun j hj => ?_) rfl rfl⟩
    cases List.mem_singleton.1 hj
    exact .inr (not_gone_of_dialing hdial)
  | exchange hstand =>
    refine ⟨_, _, .bare (rests_with c).2 (fun j hj => ?_) rfl rfl⟩
    cases List.mem_singleton.1 hj
    exact .inr (not_gone_of_standing hstand)
  | refused => exact ⟨_, _, .idle (.failed _ _ c) rfl rfl⟩

theorem Connected.plain {r : Except Fault ς} (h : Connected i c r k turn) :
    ∃ is busy, Plain free c k is busy turn := by
  have dialing {call : Call} : (Task.dialing call i).holds i = true := beq_self_eq_true i
  cases h with
  | @join _ call waiting busy hi =>
    have hheld : (connecting call waiting busy).holds i = true := by simpa [holds] using hi
    refine ⟨_, _, .bare ((Rests.join call waiting (busy.erase i) _).after (.endConnect hheld r))
      (fun j hj => ?_) rfl rfl⟩
    exact .inl (by simpa [holds] using List.mem_of_mem_erase hj)
  | exchange =>
    refine ⟨_, _, .bare ((rests_with _).2.after (.endConnect dialing _)) (fun j hj => ?_) rfl rfl⟩
    cases List.mem_singleton.1 hj
    exact .inl dialing
  | failed => exact ⟨_, _, .idle ((Rests.failed _ _ _).after (.endConnect dialing _)) rfl rfl⟩

theorem Answered.plain {r : Except Fault Wire.Response} (h : Answered c r k turn) :
    ∃ is busy, Plain free c k is busy turn := by
  cases h with
  | done =>
    exact ⟨_, _, .idle ((Rests.ended _ _ _).after (.endExchange (beq_self_eq_true _) _)) rfl rfl⟩
  | failed =>
    exact ⟨_, _, .idle ((Rests.failed _ _ _).after (.endExchange (beq_self_eq_true _) _)) rfl rfl⟩

end Task

/-- An address set that is put in place. -/
theorem update_effect {free : Nat → Prop} {c : Channel ς} (hn : (c.members.map (·.1)).Nodup)
    (set : Addresses) :
    Effect free c (.updating set)
      (Task.drop (c.replace set.1).2.stale (c.replace set.1).2.pending (c.replace set.1).1) := by
  obtain ⟨hclosed, ⟨new, hnew⟩, -, hold, hfresh, hrange, hstale, hempty⟩ := replace_spec hn set.1
  generalize c.replace set.1 = r at *
  have hlen : c.created.length ≤ r.1.created.length := by
    rw [hnew, List.length_append]; exact Nat.le_add_right _ _
  have hkeep {i : Nat} {s : Subchannel ς} (hi : c.subchannel? i = some s) :
      r.1.subchannel? i = some s := by
    show r.1.created[i]? = some s
    rw [hnew, List.getElem?_append_left (List.getElem?_eq_some_iff.1 hi).1]
    exact hi
  have hrests : Rests (fun _ => False) r.1 r.2.stale [] (Task.drop r.2.stale r.2.pending r.1) :=
    .drop r.2.stale r.2.pending r.1
  obtain ⟨hf, hh, hhead, hholds⟩ := hrests
  generalize Task.drop r.2.stale r.2.pending r.1 = turn at *
  have hpresent : turn.1.present = r.1.present := by
    unfold Channel.present
    rw [hf.members]
  refine ⟨hf.length.symm ▸ hlen, fun ⟨s, hs, hstate⟩ => hf.shut ⟨s, hkeep hs, hstate⟩,
    fun ⟨s, hs, hstate⟩ _ => ⟨hf.gone not_false ⟨s, hkeep hs, hstate⟩, ?_⟩, fun hi => ?_, nofun,
    fun hle hlt => ?_, fun hi => ?_, fun hi => ?_, fun hi hlt => ?_, fun hc _ => ?_⟩
  · exact Bool.eq_false_iff.2 fun h => nomatch hholds h
  · rw [hpresent, hh]; exact hold hi
  · rw [hpresent]; exact hfresh hle (hf.length ▸ hlt)
  · rw [hpresent] at hi
    exact (hrange hi).imp_right fun h => hf.length.symm ▸ h
  · exact .inl (hstale (hh ▸ hi))
  · exact hhead (hh ▸ hi) (Nat.lt_of_lt_of_le hlt hlen)
  · have hc' : r.1.closed = true := hf.closed ▸ hc
    exact .inl (hf.emptied hc' (hempty (hclosed ▸ hc')))

/-- A channel that is being closed. -/
theorem close_effect {free : Nat → Prop} (c : Channel ς) :
    Effect free c (.ended none) (Task.shut c.present { c with closed := true, members := [] }) := by
  have hrests : Rests (fun _ => False) { c with closed := true, members := [] } c.present []
      (Task.shut c.present { c with closed := true, members := [] }) := .shut c.present _
  obtain ⟨hf, hh, hhead, hholds⟩ := hrests
  have hempty := shut_empties (c := { c with closed := true, members := [] }) rfl c.present
  generalize Task.shut c.present { c with closed := true, members := [] } = turn at *
  have hpresent : turn.1.present = [] := by
    unfold Channel.present
    rw [hf.members]
    rfl
  refine ⟨Nat.le_of_eq hf.length.symm, hf.shut, fun hi _ => ⟨hf.gone not_false hi, ?_⟩,
    fun hi => .inr (hh ▸ hi), nofun, fun hle hlt => absurd (hf.length ▸ hlt) (Nat.not_lt.2 hle),
    fun hi => ?_, fun hi => .inl (hh ▸ hi), fun hi hlt => hhead (hh ▸ hi) hlt, fun _ _ => hempty⟩
  · exact Bool.eq_false_iff.2 fun h => nomatch hholds h
  · rw [hpresent] at hi; cases hi

namespace Traffic

variable {s s' : Traffic ς} {a : Act ς} {t : Nat}

/-- The address set that a step puts in place when the channel is closed already. -/
def brought (s : Traffic ς) : Act ς → Option Addresses
  | .lock t =>
    match s.tasks[t]? with
    | some (.updating set) => if s.unlocked && s.channel.closed then some set else none
    | _ => none
  | _ => none

/-- A turn puts an address set in place, or begins to close, or does neither. -/
inductive Outcome (s : Traffic ς) : Act ς → Task → Channel ς × Task → Prop
  | plain {a : Act ς} {old : Task} {is busy : List Nat} {turn : Channel ς × Task} :
      s.brought a = none → Plain (s.free · = true) s.channel old is busy turn → Outcome s a old turn
  | update {t : Nat} {set : Addresses} :
      s.brought (.lock t) = (if s.channel.closed then some set else none) →
      Outcome s (.lock t) (.updating set) (Task.drop (s.channel.replace set.1).2.stale
        (s.channel.replace set.1).2.pending (s.channel.replace set.1).1)
  | close : s.channel.closed = false → Outcome s .close (.ended none)
      (Task.shut s.channel.present { s.channel with closed := true, members := [] })

theorem Turn.outcome {old : Task} {turn : Channel ς × Task} (h : Turn s a t old turn)
    (hhead : ∀ {i}, old.hands.head? = some i → s.channel.Shut i) : Outcome s a old turn := by
  cases h with
  | update set =>
    refine .plain rfl (.idle ?_ rfl rfl)
    unfold beginUpdate
    split
    · exact .ended s.channel [] none
    · exact .waits s.channel [] rfl nofun
  | invoke r =>
    refine .plain rfl (.idle ?_ rfl rfl)
    unfold beginInvoke
    split
    · exact .ended s.channel [] _
    · exact .attempt _ s.channel
  | close =>
    unfold beginClose
    split
    · exact .plain rfl (.idle (.ended s.channel [] none) rfl rfl)
    · rename_i hc
      exact .close (Bool.eq_false_iff.2 hc)
  | lock hold hfree hturn =>
    cases Task.locked_of_lock? hturn with
    | update set => exact .update (by simp only [brought, hold, hfree, Bool.true_and])
    | vain => exact .plain (by simp only [brought, hold]) (.idle (.pickAgain _ s.channel) rfl rfl)
    | reconnect =>
      exact .plain (by simp only [brought, hold]) (.idle (.waits s.channel [] rfl nofun) rfl rfl)
  | stream _ hfree hturn =>
    have hplain : ∃ is busy, Plain (s.free · = true) s.channel old is busy turn :=
      (Task.streamed_of_stream? hturn).plain hhead hfree
    obtain ⟨_, _, hplain⟩ := hplain
    exact .plain rfl hplain
  | connected _ hturn =>
    obtain ⟨_, _, hplain⟩ := (Task.connected_of_connected? hturn).plain
    exact .plain rfl hplain
  | answered _ hturn =>
    obtain ⟨_, _, hplain⟩ := (Task.answered_of_answered? hturn).plain
    exact .plain rfl hplain

theorem Outcome.effect {old : Task} {turn : Channel ς × Task} (h : Outcome s a old turn)
    (hn : (s.channel.members.map (·.1)).Nodup) : Effect (s.free · = true) s.channel old turn := by
  cases h with
  | plain _ h => exact h.effect
  | update => exact update_effect hn _
  | close => exact close_effect s.channel

/-- Of what addresses the members are after a turn. -/
theorem Outcome.names {old : Task} {turn : Channel ς × Task} (h : Outcome s a old turn)
    (hn : (s.channel.members.map (·.1)).Nodup) :
    (turn.1.closed = s.channel.closed ∧ turn.1.members = s.channel.members ∧ s.brought a = none) ∨
    (turn.1.closed = s.channel.closed ∧ ∃ set : Addresses, turn.1.members.map (·.1) = set.1.addrs ∧
      s.brought a = if s.channel.closed then some set else none) ∨
    (s.channel.closed = false ∧ turn.1.members = [] ∧ s.brought a = none) := by
  cases h with
  | plain hnone h => exact .inl ⟨h.rests.follows.closed, h.rests.follows.members, hnone⟩
  | @update t set hbrought =>
    have hr := replace_spec hn set.1
    have hf : Follows (fun _ => False) (s.channel.replace set.1).1 _ := (Rests.drop
      (s.channel.replace set.1).2.stale (s.channel.replace set.1).2.pending _).follows
    exact .inr (.inl ⟨hf.closed.trans hr.closed, set,
      (congrArg (List.map (·.1)) hf.members).trans hr.names, hbrought⟩)
  | close hc =>
    have hf : Follows (fun _ => False) { s.channel with closed := true, members := [] } _ :=
      (Rests.shut s.channel.present _).follows
    exact .inr (.inr ⟨hc, hf.members, rfl⟩)

/-! ## Every subchannel is accounted for -/

/-- Every subchannel is a member, or in hand, or gone; and who has some in hand has shut the first one
down. -/
structure Kept (s : Traffic ς) : Prop where
  named : (s.channel.members.map (·.1)).Nodup
  range : ∀ {i}, i ∈ s.channel.present → i < s.channel.created.length
  reach : ∀ {t i}, i ∈ (s.task t).hands → i < s.channel.created.length
  head : ∀ {t i}, (s.task t).hands.head? = some i → s.channel.Shut i
  place : ∀ {i}, i < s.channel.created.length → i ∈ s.channel.present ∨
    (∃ t, i ∈ (s.task t).hands) ∨ s.channel.Gone i ∧ ∀ t, (s.task t).holds i = false
  emptied : s.channel.closed = true →
    s.channel.rotation.entries = [] ∨ ∃ t, (s.task t).isClosing = true

/-- A subchannel that was accounted for is so after a turn. -/
theorem Kept.place_turned {turn : Channel ς × Task} (h : Kept s)
    (he : Effect (s.free · = true) s.channel (s.task t) turn) (ht : Turned s t turn s') {i : Nat}
    (hi : i < s.channel.created.length) : i ∈ s'.channel.present ∨
      (∃ u, i ∈ (s'.task u).hands) ∨ s'.channel.Gone i ∧ ∀ u, (s'.task u).holds i = false := by
  have hself : s'.task t = turn.2 := by rw [ht.task, if_pos rfl]
  have unheld (hholds : turn.2.holds i = false) (hothers : ∀ u, (s.task u).holds i = false) :
      ∀ u, (s'.task u).holds i = false := fun u => by
    rw [ht.task]
    split
    · exact hholds
    · exact hothers u
  rw [ht.channel]
  -- a member may come into a hand, and what is in hand may be let go of when it is gone
  rcases h.place hi with hp | ⟨u, hu⟩ | ⟨hgone, hheld⟩
  · exact (he.present hp).imp_right fun hp => .inl ⟨t, hself ▸ hp⟩
  · by_cases hut : u = t
    · subst hut
      rcases he.hands hu with hp | ⟨hgone, hholds, hfree⟩
      · exact .inr (.inl ⟨u, hself ▸ hp⟩)
      · exact .inr (.inr ⟨hgone, unheld hholds (free_iff.1 hfree)⟩)
    · have hother : s'.task u = s.task u := by rw [ht.task, if_neg hut]
      exact .inr (.inl ⟨u, hother ▸ hu⟩)
  · obtain ⟨hgone', hholds⟩ := he.gone hgone (hheld t)
    exact .inr (.inr ⟨hgone', unheld hholds hheld⟩)

theorem Kept.turned {turn : Channel ς × Task} (h : Kept s)
    (ho : Outcome s a (s.task t) turn) (ht : Turned s t turn s') : Kept s' := by
  have he := ho.effect h.named
  have hself : s'.task t = turn.2 := by rw [ht.task, if_pos rfl]
  have hother {u : Nat} (hu : u ≠ t) : s'.task u = s.task u := by rw [ht.task, if_neg hu]
  have reached {i : Nat} (hi : i ∈ turn.2.hands) : i < s.channel.created.length :=
    (he.reach hi).elim h.range h.reach
  exact {
    named := by
      rw [ht.channel]
      rcases ho.names h.named with ⟨-, hm, -⟩ | ⟨-, set, hm, -⟩ | ⟨-, hm, -⟩
      · rw [hm]; exact h.named
      · rw [hm]; exact set.2
      · rw [hm]; exact List.nodup_nil
    range := fun {i} hi => by
      rw [ht.channel] at hi ⊢
      exact (he.range hi).elim (fun hi => Nat.lt_of_lt_of_le (h.range hi) he.length) id
    reach := fun {u i} hi => by
      rw [ht.channel]
      refine Nat.lt_of_lt_of_le ?_ he.length
      by_cases hu : u = t
      · rw [hu, hself] at hi; exact reached hi
      · rw [hother hu] at hi; exact h.reach hi
    head := fun {u i} hi => by
      rw [ht.channel]
      by_cases hu : u = t
      · rw [hu, hself] at hi
        exact he.head hi (reached (List.mem_of_mem_head? hi))
      · rw [hother hu] at hi
        exact he.shut (h.head hi)
    place := fun {i} hi => by
      rcases Nat.lt_or_ge i s.channel.created.length with hlt | hge
      · exact h.place_turned he ht hlt
      · rw [ht.channel] at hi ⊢
        exact .inl (he.fresh hge hi)
    emptied := fun hc => by
      rw [ht.channel] at hc ⊢
      -- another one that closes still does; else it was this task, or the rotation was empty
      by_cases hu : ∃ u, u ≠ t ∧ (s.task u).isClosing = true
      · obtain ⟨u, hut, hu⟩ := hu
        exact .inr ⟨u, hother hut ▸ hu⟩
      · refine (he.emptied hc fun hclosed => ?_).imp_right fun hp => ⟨t, hself ▸ hp⟩
        refine (h.emptied hclosed).imp_right fun ⟨u, hclosing⟩ => ?_
        by_cases hut : u = t
        · exact hut ▸ hclosing
        · exact absurd ⟨u, hut, hclosing⟩ hu }

theorem Kept.act (h : Kept s) (a : Act ς) : Kept (s.act a) := by
  rcases act_cases s a with ⟨hs, -⟩ | ⟨t, old, turn, hturn, rfl, ht⟩
  · rw [hs]; exact h
  · exact h.turned (hturn.outcome h.head) ht

/-- A channel that has just been created, with nobody at work. -/
structure Fresh (s : Traffic ς) : Prop where
  tasks : s.tasks = []
  created : s.channel.created = []
  members : s.channel.members = []
  opened : s.channel.closed = false

theorem Fresh.kept (h : s.Fresh) : Kept s := by
  have hno (t : Nat) : s.task t = .ended none := by
    unfold task
    rw [h.tasks]; rfl
  refine ⟨?_, fun {i} hi => ?_, fun {t i} hi => ?_, fun {t i} hi => ?_, fun {i} hi => ?_, fun hc => ?_⟩
  · rw [h.members]; exact List.nodup_nil
  · unfold present at hi
    rw [h.members] at hi; cases hi
  · rw [hno] at hi; cases hi
  · rw [hno] at hi; cases hi
  · rw [h.created] at hi; cases hi
  · rw [h.opened] at hc; cases hc

theorem Kept.run (h : Kept s) (acts : List (Act ς)) : Kept (s.run acts) := by
  induction acts using List.reverseRecOn with
  | nil => exact h
  | append_singleton acts a ih => rw [run_concat]; exact ih.act a

/-! ## What comes late -/

/-- The address set that was the last to be put in place after the closing. -/
def late (s : Traffic ς) : List (Act ς) → Option Addresses
  | [] => none
  | a :: acts => ((s.act a).late acts).or (s.brought a)

theorem late_concat (acts : List (Act ς)) (a : Act ς) :
    s.late (acts ++ [a]) = ((s.run acts).brought a).or (s.late acts) := by
  induction acts generalizing s with
  | nil => exact (Option.or_none).symm
  | cons b acts ih =>
    show ((s.act b).late (acts ++ [a])).or (s.brought b) = _
    rw [ih, Option.or_assoc]
    rfl

/-- What is put in place late comes from somebody who gets the lock. -/
theorem turn_of_brought {set : Addresses} (h : s.brought a = some set) :
    s.channel.closed = true ∧ ∃ t turn, Turn s a t (.updating set) turn := by
  cases a with
  | lock t =>
    simp only [brought] at h
    split at h
    · rename_i hold
      split at h
      · rename_i hboth
        cases h
        obtain ⟨hfree, hclosed⟩ := Bool.and_eq_true_iff.1 hboth
        exact ⟨hclosed, t, _, .lock hold hfree rfl⟩
      · cases h
    · cases h
  | update | invoke | close | stream | connected | answered => cases h

theorem closed_act (h : Kept s) (hc : s.channel.closed = true) (a : Act ς) :
    (s.act a).channel.closed = true := by
  rcases act_cases s a with ⟨hs, -⟩ | ⟨t, old, turn, hturn, rfl, ht⟩
  · rw [hs]; exact hc
  · rw [ht.channel]
    rcases (hturn.outcome h.head).names h.named with ⟨h', -⟩ | ⟨h', -⟩ | ⟨h', -⟩
    · exact h'.trans hc
    · exact h'.trans hc
    · rw [hc] at h'; cases h'

/-- Nothing comes late to an open channel. -/
theorem late_of_open (h : Kept s) (acts : List (Act ς))
    (hopen : (s.run acts).channel.closed = false) : s.late acts = none := by
  induction acts using List.reverseRecOn with
  | nil => rfl
  | append_singleton acts a ih =>
    rw [run_concat] at hopen
    -- what is closed stays closed
    have hbefore : (s.run acts).channel.closed = false := by
      rw [← Bool.not_eq_true]
      intro hc
      rw [closed_act (h.run acts) hc a] at hopen
      cases hopen
    rw [late_concat, ih hbefore, Option.or_none, ← Option.not_isSome_iff_eq_none,
      Option.isSome_iff_exists]
    rintro ⟨set, hb⟩
    rw [(turn_of_brought hb).1] at hbefore
    cases hbefore

/-- The addresses that were put in place last after the closing. -/
def lateAddrs (s : Traffic ς) (acts : List (Act ς)) : List String :=
  ((s.late acts).map fun set => set.1.addrs).getD []

theorem names_of_closed (h : Kept s) (hopen : s.channel.closed = false) (acts : List (Act ς))
    (hclosed : (s.run acts).channel.closed = true) :
    (s.run acts).channel.members.map (·.1) = s.lateAddrs acts := by
  induction acts using List.reverseRecOn with
  | nil =>
    have hs : s.channel.closed = true := hclosed
    rw [hopen] at hs; cases hs
  | append_singleton acts a ih =>
    have hk := h.run acts
    unfold lateAddrs
    rw [run_concat] at hclosed ⊢
    rw [late_concat]
    -- the last step is nobody's turn, or leaves the members, or replaces them, or closes
    rcases act_cases (s.run acts) a with ⟨hs, hno⟩ | ⟨t, old, turn, hturn, rfl, ht⟩
    · have hb : (s.run acts).brought a = none := by
        rw [← Option.not_isSome_iff_eq_none, Option.isSome_iff_exists]
        rintro ⟨set, hb⟩
        obtain ⟨-, t, turn, hturn⟩ := turn_of_brought hb
        exact hno hturn
      rw [hs] at hclosed ⊢
      rw [hb, Option.none_or]
      exact ih hclosed
    · rw [ht.channel] at hclosed ⊢
      rcases (hturn.outcome hk.head).names hk.named with ⟨hc, hm, hb⟩ | ⟨hc, set, hm, hb⟩ | ⟨hc, hm, hb⟩
      · rw [hm, hb, Option.none_or]
        exact ih (hc ▸ hclosed)
      · rw [hm, hb, if_pos (hc ▸ hclosed)]
        rfl
      · rw [hm, hb, late_of_open h acts hc]
        rfl

/-! ## The law -/

/-- When a channel has been closed and everybody has come to an end, it rotates over nothing; its
members are those of the addresses that were put in place last after the closing, none if there were
none; and every other subchannel that it has ever created is shut down and has no stream. -/
theorem closed_at_rest (h : s.Fresh) (acts : List (Act ς))
    (hclosed : (s.run acts).channel.closed = true) (hrest : (s.run acts).AtRest) :
    (s.run acts).channel.rotation.entries = [] ∧
    (s.run acts).channel.members.map (·.1) = s.lateAddrs acts ∧
    ∀ i < (s.run acts).channel.created.length,
      i ∈ (s.run acts).channel.present ∨ (s.run acts).channel.Gone i := by
  have hk := h.kept.run acts
  refine ⟨?_, names_of_closed h.kept h.opened acts hclosed, fun i hi => ?_⟩
  -- who has ended neither closes nor has anything in hand
  · refine (hk.emptied hclosed).resolve_right fun ⟨t, ht⟩ => ?_
    obtain ⟨r, hr⟩ := hrest.task t
    rw [hr] at ht; cases ht
  · refine (hk.place hi).imp_right fun h => h.elim (fun ⟨t, ht⟩ => ?_) And.left
    obtain ⟨r, hr⟩ := hrest.task t
    rw [hr] at ht; cases ht

/-- Nothing is connected: no members, nothing to rotate over, and every subchannel that was ever
created is shut down and has no stream. -/
def Dismantled (c : Channel ς) : Prop :=
  c.members = [] ∧ c.rotation.entries = [] ∧ ∀ i < c.created.length, c.Gone i

/-- Closing a channel leaves nothing connected exactly if no addresses were put in place after the
closing, or none at last. -/
theorem dismantled_iff (h : s.Fresh) (acts : List (Act ς))
    (hclosed : (s.run acts).channel.closed = true) (hrest : (s.run acts).AtRest) :
    Dismantled (s.run acts).channel ↔ s.lateAddrs acts = [] := by
  obtain ⟨hempty, hnames, hplace⟩ := closed_at_rest h acts hclosed hrest
  constructor
  · rintro ⟨hm, -⟩
    rw [← hnames, hm]
    rfl
  · intro hlate
    have hm : (s.run acts).channel.members = [] := by
      rw [hlate] at hnames
      exact List.map_eq_nil_iff.1 hnames
    refine ⟨hm, hempty, fun i hi => (hplace i hi).resolve_left fun hp => ?_⟩
    unfold present at hp
    rw [hm] at hp; cases hp

/-- Two address sets, a call that reconnects, and a closer. The second set waits for the lock, which
the call has, when the channel is closed; it gets the lock afterwards. -/
def overtakenUpdate : List (Act Unit) :=
  [.update (.single "a"), .lock 0, .stream 0 0,
    .connected 0 0 (.error (.connection "refused")), .invoke { id := 1, method := "m", args := .null },
    .lock 1, .stream 1 0, .update (.single "b"), .close,
    .connected 1 0 (.error (.connection "refused")), .stream 3 0, .lock 2, .stream 2 1,
    .connected 2 1 (.ok ())]

/-- Then the channel is closed and everybody has come to an end, but it is connected to the address
that came late. -/
theorem connected_after_close :
    let s : Traffic Unit := { channel := { target := .ofService "test" "orders" } }
    (s.run overtakenUpdate).channel.closed = true ∧ (s.run overtakenUpdate).AtRest ∧
      (s.run overtakenUpdate).channel.stateOf 1 = .ready ∧
      ¬ Dismantled (s.run overtakenUpdate).channel := by
  intro s
  have hclosed : (s.run overtakenUpdate).channel.closed = true := by decide +kernel
  have hrest : (s.run overtakenUpdate).AtRest := by
    unfold AtRest
    rw [← List.all_eq_true]
    decide +kernel
  have hlate : s.lateAddrs overtakenUpdate = ["b"] := by decide +kernel
  refine ⟨hclosed, hrest, by decide +kernel, fun h => ?_⟩
  rw [(dismantled_iff ⟨rfl, rfl, rfl, rfl⟩ overtakenUpdate hclosed hrest).1 h] at hlate
  cases hlate

end Traffic
end Muster.Channel
