/-
What it means that a call fails because no endpoint is available. Mostly nothing was ready then: the
rotation had just been started anew over whatever was ready. The one exception is a call that has got
the lock to reconnect and finds nothing to connect; it picks from the rotation as it was, which does
not know what another call has made ready meanwhile.
-/
import Mathlib.Data.List.Induction
import Muster.Proofs.Channel.Turns

namespace Muster.Channel

variable {ς : Type}

/-- A fault of a peer or of the transport. That nothing is available the channel says itself. -/
def isOutside : Fault → Bool
  | .unavailable _ => false
  | _ => true

theorem outcome_outside (r : Wire.Response) {f : Fault} (h : r.outcome = .error f) :
    isOutside f = true := by
  unfold Wire.Response.outcome at h
  split at h
  · split at h <;> cases h
    rfl
  · split at h <;> cases h <;> rfl

theorem refused_outside {s : Subchannel ς} {f : Fault} (h : s.approach = .refused f) :
    isOutside f = true := by
  unfold Subchannel.approach at h
  split at h
  · cases h; rfl
  · split at h <;> cases h

/-! ## The rotation -/

variable {c : Channel ς}

theorem ready_next (c : Channel ς) : c.next.2.ready = c.ready := rfl

theorem ready_of_closed (h : c.closed = true) : c.ready = [] := if_pos h

/-- A rotation that has just been started has a next member unless nothing is ready. -/
theorem ready_of_rotate_next (h : c.rotate.next.1 = none) : c.ready = [] := by
  by_contra hne
  have hlt : c.offset % c.ready.length < c.ready.length :=
    Nat.mod_lt _ (List.length_pos_iff.2 hne)
  have hcursor : (RoundRobin.withOffset c.ready c.offset).cursor = c.offset % c.ready.length := by
    unfold RoundRobin.withOffset
    rw [List.isEmpty_eq_false_iff.2 hne]
    rfl
  have hsome : (RoundRobin.withOffset c.ready c.offset).entries[
      (RoundRobin.withOffset c.ready c.offset).cursor]? = some (c.ready[c.offset % c.ready.length]) := by
    rw [hcursor]
    exact List.getElem?_eq_getElem hlt
  have hnext : c.rotate.next.1 = (RoundRobin.withOffset c.ready c.offset).next.1 := rfl
  rw [hnext, RoundRobin.next, hsome] at h
  cases h

theorem mem_ready (h : c.closed = false) : c.ready ≠ [] ↔ ∃ i ∈ c.present, c.stateOf i = .ready := by
  unfold ready
  rw [h, if_neg Bool.false_ne_true, Ne, List.filter_eq_nil_iff]
  simp

/-! ## Tasks -/

namespace Task

/-- The call that a task is about. -/
def call? : Task → Option Call
  | connecting call _ _ => call
  | reconnecting call | queued call _ | dialing call _ | exchanging call _ => some call
  | _ => none

def reconnects : Task → Bool
  | reconnecting _ => true
  | _ => false

/-- The fault that a call has ended with. -/
def fault? : Task → Option Fault
  | ended (some (.error f)) => some f
  | _ => none

/-- A call whose latest fault, if it has one, has come from outside. -/
def Honest (call : Call) : Prop := ∀ f, call.last = some f → isOutside f = true

/-- A turn that ends with the report that nothing is available only if nothing is ready. -/
structure Fair (turn : Channel ς × Task) : Prop where
  call : ∀ {call}, turn.2.call? = some call → Honest call
  unavailable : ∀ {service}, turn.2.fault? = some (.unavailable service) → turn.1.ready = []

variable {call : Call} {f : Fault}

theorem Fair.waits {k : Task} (hcall : ∀ {call}, k.call? = some call → Honest call)
    (hk : k.fault? = none) : Fair (c, k) :=
  ⟨hcall, fun h => by rw [show k.fault? = _ from h] at hk; cases hk⟩

theorem Fair.failed (h : isOutside f = true) : Fair (c, .ended (some (.error f))) :=
  ⟨nofun, fun hu => by cases hu; cases h⟩

theorem fair_giveUp (hcall : Honest call) (h : call.last = none → c.ready = []) :
    Fair (giveUp call c) := by
  unfold giveUp
  rcases hl : call.last with _ | f
  · exact ⟨nofun, fun _ => h hl⟩
  · exact .failed (hcall f hl)

theorem fair_pickAgain (hcall : Honest call) (h : c.next.1 = none → c.ready = []) :
    Fair (pickAgain call c) := by
  unfold pickAgain
  split
  · exact .waits (fun hc => by cases hc; exact hcall) rfl
  · rename_i c' heq
    have hready : c'.ready = c.ready := by rw [← ready_next c, heq]
    exact fair_giveUp hcall fun _ => hready.trans (h (by rw [heq]))

theorem fair_attempt (hcall : Honest call) (h : call.left = 0 → call.last ≠ none) :
    Fair (attempt call c) := by
  unfold attempt
  split
  · rename_i hleft
    exact fair_giveUp hcall fun hl => absurd hl (h hleft)
  · split
    · exact .waits (fun hc => by cases hc; exact hcall) rfl
    · rename_i c' heq
      split
      · rename_i hclosed
        exact fair_pickAgain hcall fun _ => ready_of_closed hclosed
      · exact .waits (fun hc => by cases hc; exact hcall) rfl

theorem fair_failed (hf : isOutside f = true) : Fair (failed call f c) := by
  unfold failed
  split
  · exact fair_attempt (fun g hg => by cases hg; exact hf) fun _ => nofun
  · exact .failed hf

theorem fair_join {call : Option Call} {waiting busy : List Nat}
    (hcall : ∀ {d}, call = some d → Honest d) : Fair (join call waiting busy c) := by
  unfold join
  split
  · split
    · exact .waits nofun rfl
    · exact fair_pickAgain (hcall rfl) ready_of_rotate_next
  · exact .waits hcall rfl

theorem fair_drop (stale pending : List Nat) : Fair (drop stale pending c) := by
  cases stale with
  | nil =>
    have hcall : ∀ {d : Call}, none = some d → Honest d := nofun
    exact fair_join hcall
  | cons i stale => exact .waits nofun rfl

theorem fair_shut (is : List Nat) : Fair (shut is c) := by
  cases is with
  | nil => exact .waits nofun rfl
  | cons i is => exact .waits nofun rfl

end Task

namespace Traffic

variable {s s' : Traffic ς} {a : Act ς} {t : Nat}

/-- The fault that a step brings. -/
def Act.fault? : Act ς → Option Fault
  | connected _ _ (.error f) | answered _ (.error f) => some f
  | _ => none

/-- All that a step is told comes from outside. -/
def Act.told (a : Act ς) : Bool := a.fault?.all isOutside

/-- A call gets the lock to reconnect, and there is nothing to connect. -/
def Vain (s : Traffic ς) (a : Act ς) (t : Nat) (old : Task) : Prop :=
  a = .lock t ∧ old.reconnects = true ∧ s.channel.reconnectable = []

theorem Turn.fair {old : Task} {turn : Channel ς × Task} (h : Turn s a t old turn)
    (hcall : ∀ {call}, old.call? = some call → Task.Honest call) (ha : a.told = true)
    (hvain : ¬ Vain s a t old) : Task.Fair turn := by
  cases h with
  | update set =>
    unfold beginUpdate
    split
    · exact .waits nofun rfl
    · exact .waits nofun rfl
  | invoke r =>
    unfold beginInvoke
    split
    · exact .failed rfl
    · exact Task.fair_attempt nofun fun h => by
        have hpos : 0 < max s.channel.options.callAttempts 1 := by omega
        exact absurd h (Nat.pos_iff_ne_zero.1 hpos)
  | close =>
    unfold beginClose
    split
    · exact .waits nofun rfl
    · exact Task.fair_shut _
  | lock _ _ hturn =>
    cases Task.locked_of_lock? hturn with
    | update set => exact Task.fair_drop _ _
    | vain hnone => exact absurd ⟨rfl, rfl, hnone⟩ hvain
    | reconnect => exact .waits hcall rfl
  | stream _ _ hturn =>
    cases Task.streamed_of_stream? hturn with
    | drop => exact Task.fair_drop _ _
    | shut => exact Task.fair_shut _
    | pass => exact Task.fair_join hcall
    | dial | dialCall | exchange => exact .waits hcall rfl
    | refused hrefused =>
      obtain ⟨sub, -, happroach⟩ := Option.map_eq_some_iff.1 hrefused
      exact Task.fair_failed (refused_outside happroach)
  | connected _ hturn =>
    cases Task.connected_of_connected? hturn with
    | join => exact Task.fair_join hcall
    | exchange => exact .waits hcall rfl
    | failed => exact Task.fair_failed ha
  | answered _ hturn =>
    cases Task.answered_of_answered? hturn with
    | @done response call i =>
      rcases hr : response.outcome with f | v
      · exact .failed (outcome_outside response hr)
      · exact .waits nofun rfl
    | failed => exact Task.fair_failed ha

/-- A call that reconnects in vain picks from the rotation that is there. -/
theorem Turn.vain {old : Task} {turn : Channel ς × Task} (h : Turn s a t old turn)
    (hvain : Vain s a t old) :
    ∃ call, old = .reconnecting call ∧ turn = Task.pickAgain call s.channel := by
  obtain ⟨rfl, hold, hnone⟩ := hvain
  cases h with
  | lock _ _ hturn =>
    cases Task.locked_of_lock? hturn with
    | update => cases hold
    | vain => exact ⟨_, rfl, rfl⟩
    | reconnect hsome => exact absurd hnone hsome

theorem pickAgain_call {call d : Call} {c : Channel ς} (h : (Task.pickAgain call c).2.call? = some d) :
    d = call := by
  unfold Task.pickAgain at h
  split at h
  · cases h; rfl
  · cases h

theorem ready_pickAgain (call : Call) (c : Channel ς) : (Task.pickAgain call c).1.ready = c.ready := by
  unfold Task.pickAgain
  split
  · rename_i heq
    rw [← ready_next c, heq]
  · rename_i heq
    rw [← ready_next c, heq]
    rfl

/-! ## Runs -/

/-- The latest faults of all calls have come from outside. -/
def Candid (s : Traffic ς) : Prop := ∀ t call, (s.task t).call? = some call → Task.Honest call

theorem Candid.act (h : Candid s) (ha : a.told = true) : Candid (s.act a) := by
  intro u call hcall
  rcases act_cases s a with ⟨hs, -⟩ | ⟨t, old, turn, hturn, rfl, ht⟩
  · rw [hs] at hcall; exact h u call hcall
  · rw [ht.task] at hcall
    split at hcall
    · -- a turn is fair unless the call reconnects in vain, which leaves it as it is
      by_cases hvain : Vain s a t (s.task t)
      · obtain ⟨d, hold, rfl⟩ := hturn.vain hvain
        rw [pickAgain_call hcall]
        exact h t d (by rw [hold]; rfl)
      · exact (hturn.fair (h t _) ha hvain).call hcall
    · exact h u call hcall

theorem candid_run (h : s.tasks = []) (acts : List (Act ς)) (hacts : ∀ b ∈ acts, b.told = true) :
    Candid (s.run acts) := by
  induction acts using List.reverseRecOn with
  | nil =>
    intro t call hcall
    have hs : s.task t = .ended none := by
      unfold task
      rw [h]; rfl
    rw [show s.run [] = s from rfl, hs] at hcall
    cases hcall
  | append_singleton acts b ih =>
    rw [run_concat]
    exact (ih fun d hd => hacts d (List.mem_append_left _ hd)).act
      (hacts b (List.mem_append_right _ (List.mem_singleton_self b)))

/-- When a call fails because nothing is available, in an open channel, then nothing is ready unless
the call has reconnected in vain, while something was ready that the rotation did not know of. -/
theorem unavailable_while_ready_iff (h : s.tasks = []) {acts : List (Act ς)}
    (hacts : ∀ b ∈ acts, b.told = true) (ha : a.told = true) {service : String}
    (hbefore : ((s.run acts).task t).fault? ≠ some (.unavailable service))
    (hafter : (((s.run acts).act a).task t).fault? = some (.unavailable service))
    (hopen : ((s.run acts).act a).channel.closed = false) :
    (∃ i ∈ ((s.run acts).act a).channel.present,
      ((s.run acts).act a).channel.stateOf i = .ready) ↔
    Vain (s.run acts) a t ((s.run acts).task t) ∧ (s.run acts).channel.ready ≠ [] := by
  have hc := candid_run h acts hacts
  generalize s.run acts = s at *
  rw [← mem_ready hopen]
  rcases act_cases s a with ⟨hs, -⟩ | ⟨u, old, turn, hturn, rfl, ht⟩
  · rw [hs] at hafter
    exact absurd hafter hbefore
  · -- the call ends by its own turn
    have hut : t = u := by
      by_contra hne
      rw [ht.task, if_neg hne] at hafter
      exact hbefore hafter
    subst hut
    rw [ht.task, if_pos rfl] at hafter
    rw [ht.channel]
    by_cases hvain : Vain s a t (s.task t)
    · obtain ⟨call, -, rfl⟩ := hturn.vain hvain
      rw [ready_pickAgain]
      exact (and_iff_right hvain).symm
    · have hfair := (hturn.fair (hc t _) ha hvain).unavailable hafter
      exact iff_of_false (fun hne => hne hfair) fun hv => hvain hv.1

/-- Two calls on one subchannel. The first loses the connection, and the rotation is started anew
without the subchannel; the second, which waits for its stream meanwhile, connects it again. -/
def secondCallConnects : List (Act Unit) :=
  [.update (.single "a"), .lock 0, .stream 0 0, .connected 0 0 (.ok ()),
    .invoke { id := 1, method := "m", args := .null },
    .invoke { id := 2, method := "m", args := .null }, .stream 1 0,
    .answered 1 (.error (.connection "connection lost")), .stream 2 0, .connected 2 0 (.ok ()),
    .answered 2 (.ok { id := 2, result := some .null, error := none, success := true }),
    .invoke { id := 3, method := "m", args := .null }]

/-- The third call fails then because nothing is available, and the subchannel is ready. -/
theorem unavailable_though_ready :
    let s : Traffic Unit :=
      { channel := { target := .ofService "test" "orders", options := { callAttempts := 1 } } }
    (((s.run secondCallConnects).act (.lock 3)).task 3).fault? = some (.unavailable "orders") ∧
      ∃ i ∈ ((s.run secondCallConnects).act (.lock 3)).channel.present,
        ((s.run secondCallConnects).act (.lock 3)).channel.stateOf i = .ready := by
  intro s
  have hafter : (((s.run secondCallConnects).act (.lock 3)).task 3).fault? =
    some (.unavailable "orders") := by decide +kernel
  have htold : ∀ b ∈ secondCallConnects, b.told = true := by
    rw [← List.all_eq_true]
    decide +kernel
  have hvain : Vain (s.run secondCallConnects) (.lock 3) 3 ((s.run secondCallConnects).task 3) :=
    ⟨rfl, by decide +kernel, by decide +kernel⟩
  exact ⟨hafter, (unavailable_while_ready_iff rfl htold rfl (by decide +kernel) hafter
    (by decide +kernel)).2 ⟨hvain, by decide +kernel⟩⟩

end Traffic
end Muster.Channel
