/-
What a call makes of its attempts. Each is an exchange with a pick of its own, and only a fault that
another attempt may mend leads to the next one. A frame that has come back is the end of a call,
whatever it holds: no fault found in a frame is of that kind. Main statement: `invoke_in_full`.
-/
import Muster.Proofs.Channel.Subchannels
import Muster.Proofs.Wire.Failure

namespace Muster.Channel

variable {ω ς : Type} (net : Network ω ς)

/-! ## One exchange -/

/-- What has come of waiting for a response, if an exchange over a stream has come so far. -/
def replyOver? (stream : ς) (r : Wire.Request) (within : Nat) (w : ω) :
    Option (Except Fault (List UInt8)) :=
  match net.send stream r.encode w with
  | (.error _, _) => none
  | (.ok (), w) => some (net.receive stream within w).1

/-- The same of an exchange that may have to connect first. -/
def Subchannel.reply? (connectWithin : Nat) (r : Wire.Request) (within : Nat) (s : Subchannel ς)
    (w : ω) : Option (Except Fault (List UInt8)) :=
  match s.connect net connectWithin w with
  | (.error _, _, _) => none
  | (.ok stream, _, w) => replyOver? net stream r within w

/-- The same of an exchange with a member. -/
def reply? (i : Nat) (r : Wire.Request) (within : Nat) (c : Channel ς) (w : ω) :
    Option (Except Fault (List UInt8)) :=
  (c.subchannel? i).bind fun s => s.reply? net c.options.connectTimeout r within w

/-- An exchange: with whom, what has come of the waiting, and how it has ended. -/
structure Exchange where
  member : Nat
  reply : Option (Except Fault (List UInt8))
  outcome : Except Fault Wire.Response

namespace Exchange

/-- Another attempt may mend it. -/
def Mendable (x : Exchange) : Prop := ∃ f, x.outcome = .error f ∧ f.isRetryable = true

/-- An exchange ends with what its frame holds, with the fault that the waiting has ended with, or
with one that has come before. -/
def Sound (r : Wire.Request) (x : Exchange) : Prop :=
  match x.reply with
  | some (.ok frame) => x.outcome = r.accept frame
  | some (.error f) => x.outcome = .error f
  | none => ∃ f, x.outcome = .error f

variable {r : Wire.Request} {x : Exchange}

/-- Once a frame has come back there is nothing to mend. -/
theorem Sound.no_frame (h : x.Sound r) (hm : x.Mendable) (frame : List UInt8) :
    x.reply ≠ some (.ok frame) := by
  intro hreply
  obtain ⟨f, hf, hretry⟩ := hm
  unfold Sound at h
  rw [hreply, hf] at h
  rw [Wire.Request.accept_final h.symm] at hretry
  cases hretry

/-- An exchange succeeds exactly with a frame that is accepted. -/
theorem Sound.accepted_iff (h : x.Sound r) {response : Wire.Response} :
    x.outcome = .ok response ↔ ∃ frame, x.reply = some (.ok frame) ∧
      Wire.Response.decode frame = .ok response ∧ (response.id = r.id ∨ response.id = 0) := by
  unfold Sound at h
  constructor
  · intro hok
    rw [hok] at h
    split at h
    · rename_i frame hreply
      exact ⟨frame, hreply, Wire.Request.accept_ok_iff.1 h.symm⟩
    · cases h
    · obtain ⟨f, hf⟩ := h; cases hf
  · rintro ⟨frame, hreply, haccept⟩
    rw [hreply] at h
    exact h.trans (Wire.Request.accept_ok_iff.2 haccept)

end Exchange

theorem sound_callMember {i within : Nat} {r : Wire.Request} {c c' : Channel ς} {w w' : ω}
    {x : Except Fault Wire.Response} (h : c.callMember net i r within w = (x, c', w')) :
    Exchange.Sound r ⟨i, c.reply? net i r within w, x⟩ := by
  obtain rfl : (c.callMember net i r within w).1 = x := congrArg Prod.fst h
  unfold Exchange.Sound reply? callMember
  rcases c.subchannel? i with _ | s
  · exact ⟨_, rfl⟩
  simp only [Option.bind_some, Subchannel.reply?, Subchannel.call]
  -- the exchange ends with the connect, with the sending, or with what is received
  rcases s.connect net c.options.connectTimeout w with ⟨f | stream, s', w₁⟩
  · exact ⟨f, rfl⟩
  simp only [Wire.exchange, replyOver?]
  rcases net.send stream r.encode w₁ with ⟨f | ⟨⟩, w₂⟩
  · exact ⟨f, rfl⟩
  simp only
  rcases net.receive stream within w₂ with ⟨f | frame, w₃⟩
  · rfl
  · rfl

/-! ## Picks -/

variable {c : Channel ς} {w : ω} {f : Fault}

@[simp]
theorem connectAll_target (is : List Nat) (c : Channel ς) (w : ω) :
    (c.connectAll net is w).1.target = c.target := by
  obtain ⟨created, h⟩ := connectAll_created net is c w
  rw [h]

@[simp]
theorem reconnect_target (c : Channel ς) (w : ω) : (c.reconnect net w).1.target = c.target := by
  unfold reconnect
  split
  · rfl
  · split
    · rfl
    · exact connectAll_target net _ c w

theorem next_target (c : Channel ς) : c.next.2.target = c.target := rfl

/-- A pick is the next member of the rotation, if need be after reconnecting, or there is none. -/
theorem pick_cases {pick : Except Fault Nat} {c' : Channel ς} {w' : ω}
    (h : c.pick net w = (pick, c', w')) :
    (∃ i, pick = .ok i ∧ c.next = (some i, c') ∧ w' = w) ∨
    ∃ d, c.next.1 = none ∧ c.next.2.reconnect net w = (d, w') ∧
      ((∃ i, pick = .ok i ∧ d.next = (some i, c')) ∨
        pick = .error c'.unavailable ∧ d.next = (none, c')) := by
  unfold Channel.pick at h
  rcases hnext : c.next with ⟨_ | i, c₁⟩
  · rcases hrec : c₁.reconnect net w with ⟨d, w₂⟩
    rcases hagain : d.next with ⟨_ | i, c₂⟩
    · simp only [hnext, hrec, hagain] at h
      cases h
      exact .inr ⟨d, rfl, rfl, .inr ⟨rfl, hagain⟩⟩
    · simp only [hnext, hrec, hagain] at h
      cases h
      exact .inr ⟨d, rfl, rfl, .inl ⟨i, rfl, hagain⟩⟩
  · simp only [hnext] at h
    cases h
    exact .inl ⟨i, rfl, rfl, rfl⟩

/-- A pick that fails says that nothing is available. -/
theorem pick_fault (h : (c.pick net w).1 = .error f) : f = c.unavailable := by
  rcases hpick : c.pick net w with ⟨pick, c', w'⟩
  rw [hpick] at h
  subst h
  obtain ⟨i, hi, -⟩ | ⟨d, -, hrec, ⟨i, hi, -⟩ | ⟨hfault, hnext⟩⟩ := pick_cases net hpick
  · cases hi
  · cases hi
  · have hc' : c'.target = d.target := by
      rw [← next_target d, hnext]
    have hd : d.target = c.target := by
      rw [← next_target c, ← reconnect_target net c.next.2 w, hrec]
    cases hfault
    unfold unavailable
    rw [hc', hd]

/-! ## Courses -/

/-- The channel behind an exchange. Before another attempt the rotation is started anew. -/
def behind (x : Except Fault Wire.Response) (c : Channel ς) : Channel ς :=
  match x with
  | .ok _ => c
  | .error f => if f.isRetryable then c.rotate else c

theorem behind_retried (hf : f.isRetryable = true) (c : Channel ς) :
    behind (.error f) c = c.rotate := if_pos hf

theorem behind_barred (hf : ¬f.isRetryable = true) (c : Channel ς) :
    behind (.error f) c = c := if_neg hf

/-- The exchanges that a request leads to, one after another, each with a pick of its own. -/
inductive Course (r : Wire.Request) (within : Nat) :
    Channel ς × ω → List Exchange → Channel ς × ω → Prop
  | rest (s : Channel ς × ω) : Course r within s [] s
  | attempt {c c₁ c₂ : Channel ς} {w w₁ w₂ : ω} {i : Nat} {x : Except Fault Wire.Response}
      {xs : List Exchange} {s : Channel ς × ω} : c.pick net w = (.ok i, c₁, w₁) →
      c₁.callMember net i r within w₁ = (x, c₂, w₂) →
      Course r within (behind x c₂, w₂) xs s →
      Course r within (c, w) (⟨i, c₁.reply? net i r within w₁, x⟩ :: xs) s

/-- How a call ends behind its exchanges: with the response of the last one, with its fault, or with
another fault if there was none. Its fault ends the call when it may not be mended, when no attempt
is left, and when there is no other pick. -/
inductive Ended (attempts : Nat) (otherwise : Fault) (xs : List Exchange) (s : Channel ς × ω) :
    Except Fault Json.Value × Channel ς × ω → Prop
  | answered {x : Exchange} {response : Wire.Response} : xs.getLast? = some x →
      x.outcome = .ok response → Ended attempts otherwise xs s (response.outcome, s)
  | barred {x : Exchange} {f : Fault} : xs.getLast? = some x → x.outcome = .error f →
      f.isRetryable = false → Ended attempts otherwise xs s (.error f, s)
  | exhausted {x : Exchange} {f : Fault} : xs.getLast? = some x → x.outcome = .error f →
      f.isRetryable = true → xs.length = attempts → Ended attempts otherwise xs s (.error f, s)
  | stranded {x : Exchange} {f g : Fault} {s' : Channel ς × ω} : xs.getLast? = some x →
      x.outcome = .error f → f.isRetryable = true → xs.length < attempts →
      s.1.pick net s.2 = (.error g, s') → Ended attempts otherwise xs s (.error f, s')
  | unpicked {g : Fault} {s' : Channel ς × ω} : xs = [] → s.1.pick net s.2 = (.error g, s') →
      Ended attempts otherwise xs s (.error otherwise, s')

/-! ## Calls -/

/-- One more exchange before, which has failed with a fault that may be mended. -/
theorem Ended.later {x : Exchange} {xs : List Exchange} {attempts : Nat} {otherwise f : Fault}
    {s : Channel ς × ω} {result : Except Fault Json.Value × Channel ς × ω}
    (hx : x.outcome = .error f) (hf : f.isRetryable = true) (hpos : 0 < attempts)
    (h : Ended net attempts f xs s result) :
    Ended net (attempts + 1) otherwise (x :: xs) s result := by
  have hcons {y : Exchange} (hlast : xs.getLast? = some y) : (x :: xs).getLast? = some y := by
    rw [List.getLast?_cons, hlast]; rfl
  cases h with
  | answered hlast hok => exact .answered (hcons hlast) hok
  | barred hlast hbad hg => exact .barred (hcons hlast) hbad hg
  | exhausted hlast hbad hg hlen =>
    exact .exhausted (hcons hlast) hbad hg (by rw [List.length_cons, hlen])
  | stranded hlast hbad hg hlt hpick =>
    exact .stranded (hcons hlast) hbad hg (by rw [List.length_cons]; omega) hpick
  | unpicked hnil hpick =>
    subst hnil
    exact .stranded rfl hx hf (by rw [List.length_singleton]; omega) hpick

theorem mem_dropLast_cons {α : Type} {a b : α} {l : List α} (h : a ∈ (b :: l).dropLast) :
    a = b ∨ a ∈ l.dropLast := by
  cases l with
  | nil => cases h
  | cons d l => exact List.mem_cons.1 h

/-- The exchanges that a call makes from some attempt on, with all that is known of them. -/
structure Attempted (r : Wire.Request) (within attempts : Nat) (otherwise : Fault)
    (s : Channel ς × ω) (result : Except Fault Json.Value × Channel ς × ω) (xs : List Exchange)
    (s' : Channel ς × ω) : Prop where
  course : Course net r within s xs s'
  length : xs.length ≤ attempts
  mendable : ∀ x ∈ xs.dropLast, x.Mendable
  sound : ∀ x ∈ xs, x.Sound r
  ended : Ended net attempts otherwise xs s' result

namespace Attempted

variable {net} {r : Wire.Request} {within attempts : Nat} {otherwise : Fault} {c c₁ c₂ : Channel ς}
  {w w₁ w₂ : ω} {i : Nat} {result : Except Fault Json.Value × Channel ς × ω}

/-- An exchange behind which the call ends. -/
theorem final {x : Except Fault Wire.Response} (hpick : c.pick net w = (.ok i, c₁, w₁))
    (hcall : c₁.callMember net i r within w₁ = (x, c₂, w₂))
    (hended : Ended net (attempts + 1) otherwise [⟨i, c₁.reply? net i r within w₁, x⟩]
      (behind x c₂, w₂) result) :
    Attempted net r within (attempts + 1) otherwise (c, w) result
      [⟨i, c₁.reply? net i r within w₁, x⟩] (behind x c₂, w₂) where
  course := .attempt hpick hcall (.rest _)
  length := Nat.le_add_left 1 attempts
  mendable := by simp
  sound := by simpa using sound_callMember net hcall
  ended := hended

/-- An exchange that has failed with a fault that may be mended, and what comes of the others. -/
theorem later {f : Fault} {xs : List Exchange} {s : Channel ς × ω}
    (hpick : c.pick net w = (.ok i, c₁, w₁))
    (hcall : c₁.callMember net i r within w₁ = (.error f, c₂, w₂)) (hf : f.isRetryable = true)
    (hpos : 0 < attempts) (h : Attempted net r within attempts f (c₂.rotate, w₂) result xs s) :
    Attempted net r within (attempts + 1) otherwise (c, w) result
      (⟨i, c₁.reply? net i r within w₁, .error f⟩ :: xs) s where
  course := .attempt hpick hcall ((behind_retried hf c₂).symm ▸ h.course)
  length := Nat.succ_le_succ h.length
  mendable x hx := by
    rcases mem_dropLast_cons hx with rfl | hx
    · exact ⟨f, rfl, hf⟩
    · exact h.mendable x hx
  sound := List.forall_mem_cons.2 ⟨sound_callMember net hcall, h.sound⟩
  ended := .later net rfl hf hpos h.ended

end Attempted

theorem attempt_course (r : Wire.Request) (within : Nat) : ∀ (attempts : Nat) (last : Option Fault)
    (c : Channel ς) (w : ω), ∃ xs s, Attempted net r within (attempts + 1)
      (last.getD c.unavailable) (c, w) (c.attempt net r within (attempts + 1) last w) xs s
  | n, last, c, w => by
    unfold attempt
    rcases hpick : c.pick net w with ⟨f | i, c₁, w₁⟩
    · obtain rfl : f = c.unavailable := pick_fault net (congrArg Prod.fst hpick)
      exact ⟨[], (c, w), .rest _, Nat.zero_le _, by simp, by simp, .unpicked rfl hpick⟩
    rcases hcall : c₁.callMember net i r within w₁ with ⟨f | response, c₂, w₂⟩
    · simp only [hcall]
      by_cases hf : f.isRetryable = true
      · rw [if_pos hf]
        cases n with
        | zero =>
          refine ⟨_, _, .final hpick hcall ?_⟩
          rw [behind_retried hf]
          exact .exhausted rfl rfl hf rfl
        | succ n =>
          obtain ⟨xs, s, hrest⟩ := attempt_course r within n (some f) c₂.rotate w₂
          exact ⟨_, s, .later hpick hcall hf (Nat.succ_pos n) hrest⟩
      · rw [if_neg hf]
        refine ⟨_, _, .final hpick hcall ?_⟩
        rw [behind_barred hf]
        exact .barred rfl rfl (Bool.eq_false_iff.2 hf)
    · simp only [hcall]
      exact ⟨_, _, .final hpick hcall (.answered rfl rfl)⟩

theorem invoke_open {c : Channel ς} (hopen : c.closed = false) (r : Wire.Request) (w : ω) :
    c.invoke net r w = c.attempt net r (r.timeoutOr c.options.callTimeout)
      (max c.options.callAttempts 1) none w := by
  unfold invoke
  rw [hopen]
  rfl

theorem invoke_course {c : Channel ς} (hopen : c.closed = false) (r : Wire.Request) (w : ω) :
    ∃ xs s, Attempted net r (r.timeoutOr c.options.callTimeout) (max c.options.callAttempts 1)
      c.unavailable (c, w) (c.invoke net r w) xs s := by
  have hattempts : max c.options.callAttempts 1 - 1 + 1 = max c.options.callAttempts 1 :=
    Nat.sub_add_cancel (Nat.le_max_right _ 1)
  obtain ⟨xs, s, hall⟩ := attempt_course net r (r.timeoutOr c.options.callTimeout)
    (max c.options.callAttempts 1 - 1) none c w
  rw [hattempts, ← invoke_open net hopen] at hall
  exact ⟨xs, s, hall⟩

/-- A call in full. In every state of an open channel, for every request and whatever the peers do,
a call makes at most as many exchanges as it has attempts, each with a pick of its own and with the
same request. Of those before the last each has failed with a fault that another attempt may mend,
and no exchange fails so to which a frame has come back. An exchange succeeds exactly with a frame
that can be read as a response with the id of the request, or with none. The call ends with the
response of the last, or with its fault if that may not be mended, or no attempt is left, or there
is no other pick; and without any exchange it reports that nothing is available. -/
theorem invoke_in_full (c : Channel ς) (hopen : c.closed = false) (r : Wire.Request) (w : ω) :
    let within := r.timeoutOr c.options.callTimeout
    let attempts := max c.options.callAttempts 1
    ∃ xs s, Course net r within (c, w) xs s ∧ xs.length ≤ attempts ∧
      (∀ x ∈ xs.dropLast, x.Mendable) ∧
      (∀ x ∈ xs, x.Mendable → ∀ frame, x.reply ≠ some (.ok frame)) ∧
      (∀ x ∈ xs, ∀ response, x.outcome = .ok response ↔ ∃ frame, x.reply = some (.ok frame) ∧
        Wire.Response.decode frame = .ok response ∧ (response.id = r.id ∨ response.id = 0)) ∧
      Ended net attempts (.unavailable c.target.service) xs s (c.invoke net r w) := by
  intro within attempts
  obtain ⟨xs, s, hall⟩ := invoke_course net hopen r w
  exact ⟨xs, s, hall.course, hall.length, hall.mendable, fun x hx => (hall.sound x hx).no_frame,
    fun x hx response => (hall.sound x hx).accepted_iff, hall.ended⟩

/-- Peers that take requests and never answer; the time that is waited for them is counted. -/
def silent : Network Nat Unit where
  connect _ _ w := (.ok (), w)
  send _ _ w := (.ok (), w)
  receive _ within w := (.error (.timeout within), w + within)

/-- A channel with one member, which is ready. -/
def oneReady : Channel Unit :=
  { target := .ofService "test" "orders"
    created := [{ addr := "a", state := .ready, stream := some () }]
    members := [("a", 0)]
    rotation := .withOffset [0] 0 }

/-- A call that is never answered. It connects again for its second attempt, which is its last. -/
theorem called_in_vain :
    let r : Wire.Request := { id := 1, method := "m", args := .null, timeoutMs := some 5 }
    oneReady.closed = false ∧ (oneReady.invoke silent r 0).1 = .error (.timeout 5) ∧
      ∃ xs s, Course silent r 5 (oneReady, 0) xs s ∧ xs.length ≤ 2 ∧
        Ended silent 2 (.unavailable "orders") xs s (oneReady.invoke silent r 0) := by
  intro r
  obtain ⟨xs, s, hcourse, hlen, -, -, -, hended⟩ := invoke_in_full silent oneReady rfl r 0
  exact ⟨rfl, rfl, xs, s, hcourse, hlen, hended⟩

end Muster.Channel
