/-
The state of a subchannel and its stream. Whoever has the stream to himself may leave them apart for
a while; when nobody has it, a ready subchannel has a stream, and only a ready one or one that is shut
down has. What anybody can do to a subchannel is said once (`Change`), by what it has the stream for
before and after.
-/
import Muster.Proofs.Channel.Subchannels

namespace Muster.Channel

variable {ς : Type}

namespace Subchannel

/-- Nobody works on the stream. -/
structure Settled (c : Subchannel ς) : Prop where
  held : c.state = .ready → c.stream.isSome = true
  kept : c.stream.isSome = true → c.state = .ready ∨ c.state = .shutdown

/-- Somebody waits for a connect. -/
structure Dialed (c : Subchannel ς) : Prop where
  stream : c.stream = none
  state : c.state = .connecting ∨ c.state = .shutdown

/-- Somebody waits for the end of an exchange. -/
structure Busy (c : Subchannel ς) : Prop where
  stream : c.stream.isSome = true
  state : c.state = .ready ∨ c.state = .shutdown

variable {c : Subchannel ς}

/-! ## Entering a state -/

theorem enter_stream (c : Subchannel ς) (next : State) : (c.enter next).stream = c.stream := by
  unfold enter
  split <;> rfl

theorem enter_addr (c : Subchannel ς) (next : State) : (c.enter next).addr = c.addr := by
  unfold enter
  split <;> rfl

theorem enter_state (c : Subchannel ς) (next : State) :
    (c.enter next).state = next ∨ (c.enter next).state = .shutdown := by
  unfold enter
  split
  · exact .inr ‹_›
  · exact .inl rfl

theorem enter_open (h : c.state ≠ .shutdown) (next : State) : (c.enter next).state = next := by
  unfold enter
  rw [if_neg h]

/-! ## What each step makes of a subchannel -/

/-- Without a stream, anything but ready is in order. -/
theorem settled_of_none (hstream : c.stream = none) (hstate : c.state ≠ .ready) : c.Settled :=
  ⟨fun hs => absurd hs hstate, fun hs => (by rw [hstream] at hs; cases hs)⟩

theorem settled_new (addr : String) : Settled ({ addr } : Subchannel ς) := settled_of_none rfl nofun

theorem Dialed.settled (h : c.Dialed) : c.Settled := by
  refine settled_of_none h.stream fun hs => ?_
  rcases h.state with hstate | hstate <;> rw [hstate] at hs <;> cases hs

theorem Busy.settled (h : c.Busy) : c.Settled := ⟨fun _ => h.stream, fun _ => h.state⟩

theorem approach_dialing (h : c.approach = .dialing) : c.state ≠ .shutdown ∧ c.stream = none := by
  unfold approach at h
  split at h
  · cases h
  · refine ⟨‹_›, ?_⟩
    split at h
    · cases h
    · assumption

theorem approach_standing {stream : ς} (h : c.approach = .standing stream) :
    c.state ≠ .shutdown ∧ c.stream = some stream := by
  unfold approach at h
  split at h
  · cases h
  · refine ⟨‹_›, ?_⟩
    split at h
    · cases h; assumption
    · cases h

theorem approach_refused {f : Fault} (h : c.approach = .refused f) :
    c.state = .shutdown ∧ f = shutDownFault c.addr := by
  unfold approach at h
  split at h
  · cases h; exact ⟨‹_›, rfl⟩
  · split at h <;> cases h

/-- What is settled, but neither ready nor shut down, is to be dialed. -/
theorem Settled.approach (h : c.Settled) (hready : c.state ≠ .ready) (hshut : c.state ≠ .shutdown) :
    c.approach = .dialing := by
  have hnone : c.stream = none := by
    rw [← Option.not_isSome_iff_eq_none]
    intro hs
    rcases h.kept hs with hs | hs
    · exact hready hs
    · exact hshut hs
  unfold Subchannel.approach
  rw [if_neg hshut, hnone]

theorem dialed_beginConnect (h : c.approach = .dialing) : c.beginConnect.Dialed := by
  obtain ⟨hstate, hstream⟩ := approach_dialing h
  exact ⟨(enter_stream c _).trans hstream, .inl (enter_open hstate _)⟩

theorem Settled.busy {stream : ς} (h : c.Settled) (ha : c.approach = .standing stream) : c.Busy := by
  obtain ⟨-, hstream⟩ := approach_standing ha
  have hsome : c.stream.isSome = true := by rw [hstream]; rfl
  exact ⟨hsome, h.kept hsome⟩

/-- A connect that ends well leaves a stream. -/
theorem busy_endConnect (c : Subchannel ς) (stream : ς) : (c.endConnect (.ok stream)).Busy :=
  ⟨by unfold endConnect; rw [enter_stream]; rfl, enter_state _ _⟩

theorem endConnect_error (c : Subchannel ς) (f : Fault) :
    (c.endConnect (.error f)).stream = c.stream ∧
      ((c.endConnect (.error f)).state = .transientFailure ∨
        (c.endConnect (.error f)).state = .shutdown) :=
  ⟨enter_stream c _, enter_state c _⟩

theorem endExchange_error (c : Subchannel ς) (f : Fault) :
    (c.endExchange (.error f)).stream = none ∧
      ((c.endExchange (.error f)).state = stateAfter f ∨
        (c.endExchange (.error f)).state = .shutdown) :=
  ⟨enter_stream _ _, enter_state _ _⟩

theorem stateAfter_cases (f : Fault) : stateAfter f = .transientFailure ∨ stateAfter f = .idle := by
  unfold stateAfter
  split
  · exact .inl rfl
  · exact .inl rfl
  · exact .inr rfl

theorem endConnect_error_state {f : Fault} {state : State} (h : (c.endConnect (.error f)).state = state) :
    state = .transientFailure ∨ state = .shutdown :=
  h ▸ (endConnect_error c f).2

theorem endExchange_error_state {f : Fault} {state : State}
    (h : (c.endExchange (.error f)).state = state) :
    state = .transientFailure ∨ state = .idle ∨ state = .shutdown := by
  rcases (endExchange_error c f).2 with hs | hs
  · rw [← h, hs, ← or_assoc]
    exact .inl (stateAfter_cases f)
  · exact .inr (.inr (h.symm.trans hs))

theorem Dialed.settled_endConnect (h : c.Dialed) (r : Except Fault ς) : (c.endConnect r).Settled := by
  cases r with
  | ok stream => exact (busy_endConnect c stream).settled
  | error f =>
    refine settled_of_none ((endConnect_error c f).1.trans h.stream) fun hs => ?_
    simpa using endConnect_error_state hs

theorem Busy.settled_endExchange (h : c.Busy) (r : Except Fault Wire.Response) :
    (c.endExchange r).Settled := by
  cases r with
  | ok response => exact h.settled
  | error f =>
    refine settled_of_none (endExchange_error c f).1 fun hs => ?_
    simpa using endExchange_error_state hs

theorem settled_beginShutdown (c : Subchannel ς) : c.beginShutdown.Settled := ⟨nofun, fun _ => .inr rfl⟩

theorem Dialed.beginShutdown (h : c.Dialed) : c.beginShutdown.Dialed := ⟨h.stream, .inr rfl⟩

theorem Busy.beginShutdown (h : c.Busy) : c.beginShutdown.Busy := ⟨h.stream, .inr rfl⟩

theorem settled_endShutdown (h : c.state = .shutdown) : c.endShutdown.Settled := by
  refine settled_of_none rfl fun hs => ?_
  rw [show c.endShutdown.state = c.state from rfl, h] at hs
  cases hs

theorem endConnect_addr (c : Subchannel ς) (r : Except Fault ς) : (c.endConnect r).addr = c.addr := by
  cases r with
  | ok stream => exact enter_addr _ _
  | error f => exact enter_addr c _

theorem endExchange_addr (c : Subchannel ς) (r : Except Fault Wire.Response) :
    (c.endExchange r).addr = c.addr := by
  cases r with
  | ok response => rfl
  | error f => exact enter_addr _ _

/-! ## Only shutting down shuts down -/

theorem enter_opened {next : State} (h : c.state ≠ .shutdown) (hnext : next ≠ .shutdown) :
    (c.enter next).state ≠ .shutdown := by
  rw [enter_open h]
  exact hnext

theorem endConnect_opened (h : c.state ≠ .shutdown) (r : Except Fault ς) :
    (c.endConnect r).state ≠ .shutdown := by
  cases r with
  | ok stream =>
    have hs : ({ c with stream := some stream } : Subchannel ς).state ≠ .shutdown := h
    exact enter_opened hs nofun
  | error f => exact enter_opened h nofun

theorem endExchange_opened (h : c.state ≠ .shutdown) (r : Except Fault Wire.Response) :
    (c.endExchange r).state ≠ .shutdown := by
  cases r with
  | ok response => exact h
  | error f =>
    have hs : ({ c with stream := none } : Subchannel ς).state ≠ .shutdown := h
    refine enter_opened hs fun hf => ?_
    simpa [hf] using stateAfter_cases f

/-! ## No connect is left behind -/

theorem endConnect_not_connecting (c : Subchannel ς) (r : Except Fault ς) :
    (c.endConnect r).state ≠ .connecting := by
  intro h
  cases r with
  | ok stream => rcases (busy_endConnect c stream).state with hs | hs <;> rw [hs] at h <;> cases h
  | error f => simpa using endConnect_error_state h

theorem Busy.endExchange_not_connecting (hc : c.Busy) (r : Except Fault Wire.Response) :
    (c.endExchange r).state ≠ .connecting := by
  intro h
  cases r with
  | ok response =>
    have hstate : c.state = .connecting := h
    rcases hc.state with hs | hs <;> rw [hs] at hstate <;> cases hstate
  | error f => simpa using endExchange_error_state h

end Subchannel

/-! ## Changes -/

/-- What somebody waits for who has a stream. -/
inductive Grip where
  | dial
  | exchange

/-- What a subchannel is like while its stream is had for something, or is not had. -/
def Subchannel.Fits (c : Subchannel ς) : Option Grip → Prop
  | none => c.Settled
  | some .dial => c.Dialed
  | some .exchange => c.Busy

theorem Subchannel.Fits.beginShutdown {c : Subchannel ς} {g : Option Grip} (h : c.Fits g) :
    c.beginShutdown.Fits g :=
  match g with
  | none => settled_beginShutdown c
  | some .dial => Dialed.beginShutdown h
  | some .exchange => Busy.beginShutdown h

/-- Whatever the stream is had for, the subchannel is settled when it is let go of. -/
theorem Subchannel.Fits.settled {c : Subchannel ς} {g : Option Grip} (h : c.Fits g) : c.Settled :=
  match g with
  | none => h
  | some .dial => Dialed.settled h
  | some .exchange => Busy.settled h

/-- What somebody makes of a subchannel, and of what it has the stream for. -/
inductive Change (free : Prop) :
    Option Grip → Subchannel ς → Option Grip → Subchannel ς → Prop
  | stay {g : Option Grip} {c : Subchannel ς} : Change free g c g c
  | dial {c : Subchannel ς} : free → c.approach = .dialing →
      Change free none c (some .dial) c.beginConnect
  | exchange {c : Subchannel ς} {stream : ς} : free → c.approach = .standing stream →
      Change free none c (some .exchange) c
  | connected {c : Subchannel ς} (r : Except Fault ς) :
      Change free (some .dial) c none (c.endConnect r)
  | standing {c : Subchannel ς} (stream : ς) :
      Change free (some .dial) c (some .exchange) (c.endConnect (.ok stream))
  | answered {c : Subchannel ς} (r : Except Fault Wire.Response) :
      Change free (some .exchange) c none (c.endExchange r)
  | leave {c : Subchannel ς} : free → c.state = .shutdown → Change free none c none c.endShutdown
  /-- Whoever has the stream is dropped. -/
  | release {g : Option Grip} {c : Subchannel ς} : Change free g c none c

namespace Change

variable {free : Prop} {g g' : Option Grip} {c c' : Subchannel ς}

theorem fits (h : Change free g c g' c') (hc : c.Fits g) : c'.Fits g' := by
  cases h with
  | stay => exact hc
  | dial _ ha => exact Subchannel.dialed_beginConnect ha
  | exchange _ ha => exact Subchannel.Settled.busy hc ha
  | connected r => exact Subchannel.Dialed.settled_endConnect hc r
  | standing stream => exact Subchannel.busy_endConnect c stream
  | answered r => exact Subchannel.Busy.settled_endExchange hc r
  | leave _ hshut => exact Subchannel.settled_endShutdown hshut
  | release => exact hc.settled

/-- Whoever does not have the stream leaves alone what somebody else has. -/
theorem aside (h : Change free none c g' c') (hfree : ¬ free) : g' = none ∧ c' = c := by
  cases h with
  | stay | release => exact ⟨rfl, rfl⟩
  | dial hf | exchange hf | leave hf => exact absurd hf hfree

theorem addr (h : Change free g c g' c') : c'.addr = c.addr := by
  cases h with
  | stay | exchange | leave | release => rfl
  | dial => exact Subchannel.enter_addr c _
  | connected r => exact Subchannel.endConnect_addr c r
  | standing stream => exact Subchannel.endConnect_addr c _
  | answered r => exact Subchannel.endExchange_addr c r

/-- What is shut down stays so. -/
theorem shut (h : Change free g c g' c') (hc : c.state = .shutdown) : c'.state = .shutdown := by
  cases h with
  | stay | exchange | leave | release => exact hc
  | dial => exact (congrArg Subchannel.state (Subchannel.enter_shut hc _)).trans hc
  | connected r => exact Subchannel.endConnect_shut hc r
  | standing stream => exact Subchannel.endConnect_shut hc _
  | answered r => exact Subchannel.endExchange_shut hc r

/-- None of this shuts a subchannel down. -/
theorem opened (h : Change free g c g' c') (hc : c.state ≠ .shutdown) : c'.state ≠ .shutdown := by
  cases h with
  | stay | exchange | release => exact hc
  | dial => exact Subchannel.enter_opened hc nofun
  | connected r => exact Subchannel.endConnect_opened hc r
  | standing stream => exact Subchannel.endConnect_opened hc _
  | answered r => exact Subchannel.endExchange_opened hc r
  | leave _ hshut => exact absurd hshut hc

end Change

end Muster.Channel
