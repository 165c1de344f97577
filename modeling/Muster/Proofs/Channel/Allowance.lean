/-
How long a call may wait for responses. The deadline of a request is handed out anew to each of its
exchanges, so it bounds the waiting of one and not that of the call, which is as many times as long
as exchanges come to wait. Main statement: `allowance_in_full`.
-/
import Muster.Proofs.Channel.Retrying

namespace Muster

variable {ω ς : Type}

/-- The same peers; the time that is allowed for the waiting is added up. -/
def Network.metered (net : Network ω ς) : Network (ω × Nat) ς where
  connect addr within w := ((net.connect addr within w.1).1, ((net.connect addr within w.1).2, w.2))
  send stream payload w := ((net.send stream payload w.1).1, ((net.send stream payload w.1).2, w.2))
  receive stream within w :=
    ((net.receive stream within w.1).1, ((net.receive stream within w.1).2, w.2 + within))

namespace Channel

variable (net : Network ω ς)

/-! ## Metering -/

theorem metered_connect (s : Subchannel ς) (within : Nat) (w : ω) (m : Nat) :
    s.connect net.metered within (w, m) =
      ((s.connect net within w).1, (s.connect net within w).2.1, (s.connect net within w).2.2,
        m) := by
  unfold Subchannel.connect
  split <;> rfl

theorem metered_connectAll (is : List Nat) (c : Channel ς) (w : ω) (m : Nat) :
    c.connectAll net.metered is (w, m) =
      ((c.connectAll net is w).1, (c.connectAll net is w).2, m) := by
  induction is generalizing c w with
  | nil => rfl
  | cons i is ih =>
    unfold connectAll
    split
    · exact ih c w
    · rw [metered_connect]
      exact ih _ _

theorem metered_reconnect (c : Channel ς) (w : ω) (m : Nat) :
    c.reconnect net.metered (w, m) = ((c.reconnect net w).1, (c.reconnect net w).2, m) := by
  unfold reconnect
  split
  · rfl
  · split
    · rfl
    · rw [metered_connectAll]

theorem metered_pick (c : Channel ς) (w : ω) (m : Nat) :
    c.pick net.metered (w, m) = ((c.pick net w).1, (c.pick net w).2.1, (c.pick net w).2.2, m) := by
  unfold pick
  split
  · rfl
  · rw [metered_reconnect]
    dsimp only
    split <;> rfl

/-- An exchange that comes to wait may wait for all of its time. -/
theorem metered_exchange (stream : ς) (r : Wire.Request) (within : Nat) (w : ω) (m : Nat) :
    Wire.exchange net.metered stream r within (w, m) =
      ((Wire.exchange net stream r within w).1, (Wire.exchange net stream r within w).2,
        m + if (replyOver? net stream r within w).isSome then within else 0) := by
  unfold Wire.exchange replyOver?
  simp only [Network.metered]
  rcases net.send stream r.encode w with ⟨f | ⟨⟩, w'⟩
  · rfl
  · rcases hreceive : net.receive stream within w' with ⟨f | frame, w''⟩ <;> simp [hreceive]

theorem metered_replyOver? (stream : ς) (r : Wire.Request) (within : Nat) (w : ω) (m : Nat) :
    replyOver? net.metered stream r within (w, m) = replyOver? net stream r within w := by
  unfold replyOver?
  simp only [Network.metered]
  rcases net.send stream r.encode w with ⟨f | ⟨⟩, w'⟩
  · rfl
  · rfl

theorem metered_call (s : Subchannel ς) (connectWithin : Nat) (r : Wire.Request) (within : Nat)
    (w : ω) (m : Nat) : s.call net.metered connectWithin r within (w, m) =
      ((s.call net connectWithin r within w).1, (s.call net connectWithin r within w).2.1,
        (s.call net connectWithin r within w).2.2,
        m + if (s.reply? net connectWithin r within w).isSome then within else 0) := by
  unfold Subchannel.call Subchannel.reply?
  rw [metered_connect]
  rcases s.connect net connectWithin w with ⟨f | stream, s', w'⟩
  · rfl
  · simp only [metered_exchange]

theorem metered_callMember (i : Nat) (r : Wire.Request) (within : Nat) (c : Channel ς) (w : ω)
    (m : Nat) : c.callMember net.metered i r within (w, m) =
      ((c.callMember net i r within w).1, (c.callMember net i r within w).2.1,
        (c.callMember net i r within w).2.2,
        m + if (c.reply? net i r within w).isSome then within else 0) := by
  unfold callMember reply?
  rcases c.subchannel? i with _ | s
  · rfl
  · simp only [metered_call, Option.bind_some]

theorem metered_reply? (i : Nat) (r : Wire.Request) (within : Nat) (c : Channel ς) (w : ω)
    (m : Nat) : c.reply? net.metered i r within (w, m) = c.reply? net i r within w := by
  unfold reply? Subchannel.reply?
  congr 1
  funext s
  rw [metered_connect]
  rcases s.connect net c.options.connectTimeout w with ⟨f | stream, s', w'⟩
  · rfl
  · exact metered_replyOver? net stream r within w' m

/-- To meter the peers changes nothing of what a call does. -/
theorem metered_attempt (r : Wire.Request) (within : Nat) : ∀ (attempts : Nat) (last : Option Fault)
    (c : Channel ς) (w : ω) (m : Nat), ∃ total,
      c.attempt net.metered r within attempts last (w, m) =
        ((c.attempt net r within attempts last w).1, (c.attempt net r within attempts last w).2.1,
          (c.attempt net r within attempts last w).2.2, total)
  | 0, _, _, _, m => ⟨m, rfl⟩
  | n + 1, last, c, w, m => by
    unfold attempt
    rw [metered_pick]
    rcases c.pick net w with ⟨f | i, c₁, w₁⟩
    · exact ⟨m, rfl⟩
    simp only
    rw [metered_callMember]
    rcases c₁.callMember net i r within w₁ with ⟨f | response, c₂, w₂⟩
    · simp only
      split
      · exact metered_attempt r within n (some f) c₂.rotate w₂ _
      · exact ⟨_, rfl⟩
    · exact ⟨_, rfl⟩

/-! ## What is allowed -/

/-- The exchanges that have come to wait. -/
def waits (xs : List Exchange) : Nat := xs.countP (·.reply.isSome)

theorem Course.meter {r : Wire.Request} {within : Nat} {s s' : Channel ς × ω × Nat}
    {xs : List Exchange} (h : Course net.metered r within s xs s') :
    s'.2.2 = s.2.2 + waits xs * within := by
  induction h with
  | rest s => simp [waits]
  | @attempt c c₁ c₂ w w₁ w₂ i x xs s hpick hcall hrest ih =>
    obtain ⟨w, m⟩ := w
    rw [metered_pick] at hpick
    obtain ⟨-, rfl, rfl⟩ := by simpa only [Prod.mk.injEq] using hpick
    rw [metered_callMember] at hcall
    obtain ⟨-, rfl, rfl⟩ := by simpa only [Prod.mk.injEq] using hcall
    rw [ih, metered_reply?]
    unfold waits
    rw [List.countP_cons]
    split
    · simp only [Nat.add_mul, Nat.one_mul]; omega
    · simp

theorem Ended.meter {attempts : Nat} {otherwise : Fault} {xs : List Exchange}
    {s : Channel ς × ω × Nat} {result : Except Fault Json.Value × Channel ς × ω × Nat}
    (h : Ended net.metered attempts otherwise xs s result) : result.2.2.2 = s.2.2 := by
  have hpicked {x : Except Fault Nat × Channel ς × ω × Nat}
      (hpick : s.1.pick net.metered s.2 = x) : x.2.2.2 = s.2.2 := by
    rw [← hpick]
    exact congrArg (·.2.2.2) (metered_pick net s.1 s.2.1 s.2.2)
  cases h with
  | answered | barred | exhausted => rfl
  | stranded _ _ _ _ hpick | unpicked _ hpick => exact hpicked hpick

/-- What a call allows in full. The time for which its exchanges may wait for responses, added up
over all its attempts, is its deadline as many times as exchanges come to wait, and these are at
most its attempts. So it keeps within the deadline if and only if at most one exchange comes to wait, or
there is no time to wait. To add it up changes nothing of the call. -/
theorem allowance_in_full (c : Channel ς) (hopen : c.closed = false) (r : Wire.Request) (w : ω) :
    let within := r.timeoutOr c.options.callTimeout
    let metered := c.invoke net.metered r (w, 0)
    let total := metered.2.2.2
    (metered.1, metered.2.1, metered.2.2.1) = c.invoke net r w ∧
    ∃ xs s, Course net.metered r within (c, w, 0) xs s ∧ xs.length ≤ max c.options.callAttempts 1 ∧
      total = waits xs * within ∧ (total ≤ within ↔ waits xs ≤ 1 ∨ within = 0) := by
  intro within metered total
  obtain ⟨xs, s, hall⟩ := invoke_course net.metered hopen r (w, 0)
  have htotal : total = waits xs * within := by
    have := hall.course.meter
    rw [Nat.zero_add] at this
    exact hall.ended.meter.trans this
  refine ⟨?_, xs, s, hall.course, hall.length, htotal, ?_⟩
  · obtain ⟨m, hm⟩ := metered_attempt net r within (max c.options.callAttempts 1) none c w 0
    show ((c.invoke net.metered r (w, 0)).1, (c.invoke net.metered r (w, 0)).2.1,
      (c.invoke net.metered r (w, 0)).2.2.1) = c.invoke net r w
    rw [invoke_open net.metered hopen, invoke_open net hopen, hm]
  · rw [htotal]
    constructor
    · intro hle
      rcases Nat.lt_or_ge 1 (waits xs) with hmore | hone
      · -- two of them alone may wait for twice as long
        have := Nat.mul_le_mul_right within hmore
        exact .inr (by omega)
      · exact .inl hone
    · rintro (hone | hzero)
      · exact Nat.le_trans (Nat.mul_le_mul_right within hone) (Nat.le_of_eq (Nat.one_mul within))
      · exact Nat.le_of_eq (by rw [hzero, Nat.mul_zero])

/-- Two exchanges wait for five each, where the deadline of the call is five. -/
theorem allowed_twice :
    let r : Wire.Request := { id := 1, method := "m", args := .null, timeoutMs := some 5 }
    r.timeoutOr oneReady.options.callTimeout = 5 ∧
      (oneReady.invoke silent.metered r (0, 0)).2.2.2 = 10 :=
  ⟨rfl, rfl⟩

end Channel
end Muster
