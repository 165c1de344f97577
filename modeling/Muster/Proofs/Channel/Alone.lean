/-
Whoever works on a channel alone does what the operations of a channel do. The steps of a lone task
are those of the operation in its order: an address set is applied, a call is made and the channel is
closed as if there were no waits in between.
-/
import Muster.Proofs.Channel.Subchannels
import Muster.Proofs.Channel.Turns

namespace Muster.Channel

variable {ω ς : Type}

/-! ## Changes of one subchannel after another -/

variable {c : Channel ς} {i : Nat}

theorem update_update (c : Channel ς) (i : Nat) (f g : Subchannel ς → Subchannel ς) :
    (c.update i f).update i g = c.update i (g ∘ f) := by
  unfold update
  rw [List.modify_modify_eq]

theorem update_congr {f g : Subchannel ς → Subchannel ς}
    (h : ∀ s, c.subchannel? i = some s → f s = g s) : c.update i f = c.update i g := by
  have hlist : c.created.modify i f = c.created.modify i g := by
    refine List.ext_getElem? fun j => ?_
    rw [List.getElem?_modify, List.getElem?_modify]
    rcases hj : c.created[j]? with _ | s
    · rfl
    · by_cases hij : i = j
      · subst hij
        simp [h s hj]
      · simp [hij]
  unfold update
  rw [hlist]

theorem update_same {f : Subchannel ς → Subchannel ς}
    (h : ∀ s, c.subchannel? i = some s → f s = s) : c.update i f = c := by
  rw [update_congr (g := id) h]
  unfold update
  rw [List.modify_id]

namespace Traffic

/-! ## A task alone -/

/-- One task is at work, and the others have ended. -/
structure Lone (s : Traffic ς) (t : Nat) (turn : Channel ς × Task) : Prop where
  channel : s.channel = turn.1
  task : s.tasks[t]? = some turn.2
  others : ∀ u, u ≠ t → (s.task u).hasEnded = true

/-- What a lone task comes to by some steps. -/
def Leads (a b : Channel ς × Task) : Prop :=
  ∀ (s : Traffic ς) (t : Nat), Lone s t a → ∃ acts, Lone (s.run acts) t b

theorem Leads.refl (a : Channel ς × Task) : Leads a a := fun _ _ h => ⟨[], h⟩

theorem Leads.trans {a b d : Channel ς × Task} (h : Leads a b) (g : Leads b d) : Leads a d := by
  intro s t hs
  obtain ⟨as, has⟩ := h s t hs
  obtain ⟨bs, hbs⟩ := g _ t has
  refine ⟨as ++ bs, ?_⟩
  rwa [run, List.foldl_append]

variable {s : Traffic ς} {t : Nat} {a b : Channel ς × Task}

theorem Lone.proceed (h : Lone s t a) {f : Task → Option (Channel ς × Task)} (hf : f a.2 = some b) :
    Lone (s.proceed t f) t b := by
  have hlt := (List.getElem?_eq_some_iff.1 h.task).1
  have hs : s.proceed t f = { channel := b.1, tasks := s.tasks.set t b.2 } := by
    unfold Traffic.proceed
    rw [h.task, Option.bind_some, hf]
  rw [hs]
  refine ⟨rfl, List.getElem?_set_self hlt, fun u hu => ?_⟩
  have hset : Turned s t b { channel := b.1, tasks := s.tasks.set t b.2 } := turned_set h.task
  rw [hset.task u, if_neg hu]
  exact h.others u hu

theorem Lone.task_cases (h : Lone s t a) (u : Nat) :
    s.task u = a.2 ∨ (s.task u).hasEnded = true := by
  by_cases hu : u = t
  · exact .inl (hu ▸ task_of_mem h.task)
  · exact .inr (h.others u hu)

theorem leads_lock (hk : a.2.locks = false) (hturn : a.2.lock? a.1 = some b) : Leads a b := by
  intro s t h
  refine ⟨[.lock t], ?_⟩
  have hfree : s.unlocked = true := by
    unfold unlocked
    rw [Bool.not_eq_true', List.any_eq_false]
    intro k hmem
    obtain ⟨u, hu⟩ := List.mem_iff_getElem?.1 hmem
    rcases h.task_cases u with ht | ht
    · rw [← task_of_mem hu, ht, hk]; exact Bool.false_ne_true
    · rw [task_of_mem hu] at ht
      obtain ⟨r, rfl⟩ := Task.ended_of_hasEnded ht
      exact Bool.false_ne_true
  show Lone (s.act (.lock t)) t b
  rw [act, if_pos hfree]
  exact h.proceed (h.channel ▸ hturn)

theorem leads_stream {i : Nat} (hk : a.2.holds i = false) (hturn : a.2.stream? i a.1 = some b) :
    Leads a b := by
  intro s t h
  refine ⟨[.stream t i], ?_⟩
  have hfree : s.free i = true := by
    rw [free_iff]
    intro u
    rcases h.task_cases u with ht | ht
    · rw [ht, hk]
    · obtain ⟨r, hr⟩ := Task.ended_of_hasEnded ht
      rw [hr]; rfl
  show Lone (s.act (.stream t i)) t b
  rw [act, if_pos hfree]
  exact h.proceed (h.channel ▸ hturn)

theorem leads_connected {i : Nat} (r : Except Fault ς) (hturn : a.2.connected? i r a.1 = some b) :
    Leads a b :=
  fun _ t h => ⟨[.connected t i r], h.proceed (h.channel ▸ hturn)⟩

theorem leads_answered (r : Except Fault Wire.Response) (hturn : a.2.answered? r a.1 = some b) :
    Leads a b :=
  fun _ t h => ⟨[.answered t r], h.proceed (h.channel ▸ hturn)⟩

/-! ## Closing -/

theorem leads_shut (is : List Nat) (c : Channel ς) :
    Leads (Task.shut is c) ((c.shutdownAll is).rotate, .ended none) := by
  induction is generalizing c with
  | nil => exact .refl _
  | cons i is ih =>
    have hstream : Leads (Task.shut (i :: is) c) (Task.shut is (c.update i Subchannel.shutdown)) := by
      refine leads_stream (i := i) rfl ?_
      show (if i = i then some (Task.shut is ((c.update i Subchannel.beginShutdown).update i
        Subchannel.endShutdown)) else none) = _
      rw [if_pos rfl, update_update]
      rfl
    exact hstream.trans (ih _)

theorem leads_close (c : Channel ς) : Leads (beginClose c) (c.close, .ended none) := by
  unfold beginClose close
  split
  · exact .refl _
  · exact leads_shut _ _

/-! ## Connecting -/

variable (net : Network ω ς)

/-- What is connected already, or is shut down, is passed over. -/
theorem connectAll_stay {c : Channel ς} {i : Nat}
    (h : ∀ s, c.subchannel? i = some s → s.approach ≠ .dialing) (is : List Nat) (w : ω) :
    c.connectAll net (i :: is) w = c.connectAll net is w := by
  rcases hi : c.subchannel? i with _ | s
  · simp only [connectAll, hi]
  · have hsame : c.update i (fun _ => s) = c := update_same fun s' hs' => by
      rw [hi] at hs'; exact Option.some.inj hs'
    rcases ha : s.approach with f | stream | _
    · simp only [connectAll, Subchannel.connect, hi, ha, hsame]
    · simp only [connectAll, Subchannel.connect, hi, ha, hsame]
    · exact absurd ha (h s hi)

theorem connectAll_dial {c : Channel ς} {i : Nat} {s : Subchannel ς} (hi : c.subchannel? i = some s)
    (ha : s.approach = .dialing) (is : List Nat) (w : ω) :
    c.connectAll net (i :: is) w =
      ((c.update i Subchannel.beginConnect).update i fun s' =>
        s'.endConnect (net.connect s.addr c.options.connectTimeout w).1).connectAll net is
          (net.connect s.addr c.options.connectTimeout w).2 := by
  simp only [connectAll, Subchannel.connect, hi, ha, update_update]
  refine congrArg (connectAll net is · _) (update_congr fun s' hs' => ?_)
  rw [hi] at hs'
  cases hs'
  rfl

/-- A lone task connects subchannels in turn: it gets the stream of each, and waits for the peer if
need be. -/
theorem leads_connectAll (call : Option Call) (is : List Nat) (c : Channel ς) (w : ω) :
    Leads (Task.join call is [] c) (Task.join call [] [] (c.connectAll net is w).1) := by
  induction is generalizing c w with
  | nil => exact .refl _
  | cons i is ih =>
    have herase : (i :: is).erase i = is := List.erase_cons_head i is
    show Leads (c, .connecting call (i :: is) []) _
    -- what is to be dialed takes two steps, anything else one
    by_cases hdial : ∃ s, c.subchannel? i = some s ∧ s.approach = .dialing
    · obtain ⟨s, hi, ha⟩ := hdial
      have hstream : Leads (c, Task.connecting call (i :: is) [])
          (c.update i Subchannel.beginConnect, .connecting call is [i]) := by
        refine leads_stream (i := i) rfl ?_
        simp only [Task.stream?, if_pos (List.mem_cons_self (a := i) (l := is)), hi, Option.map_some,
          ha, herase]
      refine (hstream.trans (leads_connected (i := i)
        (net.connect s.addr c.options.connectTimeout w).1 ?_)).trans
          (connectAll_dial net hi ha is w ▸ ih _ _)
      simp only [Task.connected?, if_pos (List.mem_singleton_self i), List.erase_cons_head]
    · have hstay (s : Subchannel ς) (hs : c.subchannel? i = some s) : s.approach ≠ .dialing :=
        fun ha => hdial ⟨s, hs, ha⟩
      rw [connectAll_stay net hstay]
      refine (leads_stream (i := i) rfl ?_).trans (ih c w)
      simp only [Task.stream?, if_pos (List.mem_cons_self (a := i) (l := is)), herase]
      split
      · rename_i ha
        obtain ⟨s, hs, ha⟩ := Option.map_eq_some_iff.1 ha
        exact absurd ha (hstay s hs)
      · rfl

/-! ## Address sets -/

theorem leads_drop (stale pending : List Nat) (c : Channel ς) :
    Leads (Task.drop stale pending c) (Task.join none pending [] (c.shutdownAll stale)) := by
  induction stale generalizing c with
  | nil => exact .refl _
  | cons i stale ih =>
    have hstream : Leads (Task.drop (i :: stale) pending c)
        (Task.drop stale pending (c.update i Subchannel.shutdown)) := by
      refine leads_stream (i := i) rfl ?_
      show (if i = i then some (Task.drop stale pending ((c.update i Subchannel.beginShutdown).update i
        Subchannel.endShutdown)) else none) = _
      rw [if_pos rfl, update_update]
      rfl
    exact hstream.trans (ih _)

theorem leads_update (set : Addresses) (c : Channel ς) (w : ω) :
    Leads (beginUpdate set c) ((c.apply net set.1 w).1, .ended none) := by
  unfold beginUpdate apply
  split
  · exact .refl _
  · refine (leads_lock rfl rfl).trans ((leads_drop _ _ _).trans ?_)
    exact leads_connectAll net none _ _ w

/-! ## Calls -/

/-- Members and rotation name subchannels that are there. -/
structure InRange (c : Channel ς) : Prop where
  present : ∀ i ∈ c.present, i < c.created.length
  entries : ∀ i ∈ c.rotation.entries, i < c.created.length

namespace InRange

variable {c : Channel ς}

theorem update (h : InRange c) (i : Nat) (f : Subchannel ς → Subchannel ς) :
    InRange (c.update i f) := by
  have hlen : (c.update i f).created.length = c.created.length := List.length_modify ..
  exact ⟨fun j hj => hlen.symm ▸ h.present j hj, fun j hj => hlen.symm ▸ h.entries j hj⟩

theorem rotate (h : InRange c) : InRange c.rotate := by
  refine ⟨h.present, fun i hi => h.present i ?_⟩
  have hi : i ∈ c.ready := hi
  unfold ready at hi
  split at hi
  · cases hi
  · exact (List.mem_filter.1 hi).1

theorem next (h : InRange c) {pick : Option Nat} {c' : Channel ς} (hnext : c.next = (pick, c')) :
    InRange c' ∧ ∀ {i}, pick = some i → i < c'.created.length := by
  obtain ⟨⟨cursor, rfl⟩, hpick⟩ := next_spec hnext
  exact ⟨⟨h.present, h.entries⟩, fun hi => h.entries _ (hpick _ hi)⟩

theorem connectAll (h : InRange c) (is : List Nat) (w : ω) : InRange (c.connectAll net is w).1 := by
  induction is generalizing c w with
  | nil => exact h
  | cons i is ih =>
    rw [Channel.connectAll]
    split
    · exact ih h w
    · exact ih (h.update i _) _

theorem reconnect (h : InRange c) (w : ω) : InRange (c.reconnect net w).1 := by
  unfold Channel.reconnect
  split
  · exact h
  · split
    · exact h
    · exact (h.connectAll net _ w).rotate

end InRange

variable {c : Channel ς} {i : Nat}

/-- What comes of an exchange. -/
def exchanged (call : Call) (r : Except Fault Wire.Response) (c : Channel ς) : Channel ς × Task :=
  match r with
  | .ok response => (c, .ended (some response.outcome))
  | .error f => Task.failed call f c

theorem leads_exchanging (call : Call) (r : Except Fault Wire.Response) :
    Leads (c, .exchanging call i) (exchanged call r (c.update i fun s => s.endExchange r)) := by
  refine leads_answered r ?_
  cases r <;> rfl

theorem update_known {s : Subchannel ς} (hs : c.subchannel? i = some s)
    (f : Subchannel ς → Subchannel ς) : c.update i f = c.update i fun _ => f s :=
  update_congr fun s' hs' => by rw [hs] at hs'; cases hs'; rfl

/-- A lone call makes an exchange with its pick. -/
theorem leads_queued (hi : i < c.created.length) (call : Call) (within : Nat) (w : ω) :
    Leads (c, .queued call i) (exchanged call (c.callMember net i call.request within w).1
      (c.callMember net i call.request within w).2.1) := by
  obtain ⟨s, hs⟩ := subchannel?_of_lt hi
  -- its pick is shut down, or connected, or to be dialed
  rcases ha : s.approach with f | stream | _
  · have hsame : c.update i (fun _ => s) = c := update_same fun s' hs' => by
      rw [hs] at hs'; exact Option.some.inj hs'
    have hstream : Leads (c, .queued call i) (Task.failed call f c) := by
      refine leads_stream (i := i) rfl ?_
      simp only [Task.stream?, if_true, hs, Option.map_some, ha]
    simp only [callMember, hs, Subchannel.call, Subchannel.connect, ha, hsame]
    exact hstream
  · have hstream : Leads (c, Task.queued call i) (c, .exchanging call i) := by
      refine leads_stream (i := i) rfl ?_
      simp only [Task.stream?, if_true, hs, Option.map_some, ha]
    simp only [callMember, hs, Subchannel.call, Subchannel.connect, ha]
    rw [← update_known hs fun s' => s'.endExchange _]
    exact hstream.trans (leads_exchanging call _)
  · have hstream : Leads (c, Task.queued call i)
        (c.update i Subchannel.beginConnect, .dialing call i) := by
      refine leads_stream (i := i) rfl ?_
      simp only [Task.stream?, if_true, hs, Option.map_some, ha]
    refine hstream.trans ?_
    rcases hconn : net.connect s.addr c.options.connectTimeout w with ⟨f | stream, w'⟩
    · have hcall : c.callMember net i call.request within w =
          (.error f, c.update i fun s' => s'.beginConnect.endConnect (.error f), w') := by
        rw [update_known hs]
        simp only [callMember, hs, Subchannel.call, Subchannel.connect, ha, hconn]
      rw [hcall]
      refine leads_connected (i := i) (.error f) ?_
      simp only [Task.connected?, if_true, update_update]
      rfl
    · have hconnected : Leads (c.update i Subchannel.beginConnect, Task.dialing call i)
          (c.update i fun s' => s'.beginConnect.endConnect (.ok stream), .exchanging call i) := by
        refine leads_connected (i := i) (.ok stream) ?_
        simp only [Task.connected?, if_true, update_update]
        rfl
      have hcall : c.callMember net i call.request within w =
          ((Wire.exchange net stream call.request within w').1,
            (c.update i fun s' => s'.beginConnect.endConnect (.ok stream)).update i fun s' =>
              s'.endExchange (Wire.exchange net stream call.request within w').1,
            (Wire.exchange net stream call.request within w').2) := by
        rw [update_update, update_known hs]
        simp only [callMember, hs, Subchannel.call, Subchannel.connect, ha, hconn]
        rfl
      rw [hcall]
      exact hconnected.trans (leads_exchanging call _)

theorem callMember_inRange (h : InRange c) (i : Nat) (r : Wire.Request) (within : Nat) (w : ω) :
    InRange (c.callMember net i r within w).2.1 := by
  unfold callMember
  split
  · exact h
  · exact h.update i _

/-- A lone call that has not found a pick comes to its second one. -/
theorem leads_reconnect (call : Call) (c : Channel ς) (w : ω) :
    Leads (if c.closed then Task.pickAgain call c else (c, .reconnecting call))
      (Task.pickAgain call (c.reconnect net w).1) := by
  unfold reconnect
  split
  · exact .refl _
  · split
    · rename_i hnone
      exact leads_lock rfl (by simp only [Task.lock?, hnone])
    · rename_i is hsome
      have hlock : Leads (c, Task.reconnecting call) (Task.join (some call) c.reconnectable [] c) := by
        refine leads_lock rfl ?_
        simp only [Task.lock?]
        rcases hr : c.reconnectable with _ | ⟨i, is⟩
        · exact absurd hr hsome
        · rfl
      exact hlock.trans (leads_connectAll net (some call) _ c w)

/-- What an attempt makes of its exchange. -/
def settle (r : Wire.Request) (within n : Nat) :
    Except Fault Wire.Response × Channel ς × ω → Except Fault Json.Value × Channel ς × ω
  | (.ok response, c, w) => (response.outcome, c, w)
  | (.error f, c, w) =>
    if f.isRetryable then c.rotate.attempt net r within n (some f) w else (.error f, c, w)

theorem attempt_of_pick {r : Wire.Request} {within n : Nat} {last : Option Fault} {w w' : ω}
    {c' : Channel ς} (h : c.pick net w = (.ok i, c', w')) :
    c.attempt net r within (n + 1) last w =
      settle net r within n (c'.callMember net i r within w') := by
  rw [Channel.attempt, h]
  rfl

/-- Of the attempts of a lone call each makes its exchange with a pick of its own, as long as they
fail in a way that another one may mend. -/
theorem leads_attempt (r : Wire.Request) (within n : Nat) (last : Option Fault) (h : InRange c)
    (w : ω) :
    Leads (Task.attempt { request := r, left := n, last } c)
      ((c.attempt net r within n last w).2.1, .ended (some (c.attempt net r within n last w).1)) := by
  induction n generalizing c last w with
  | zero => exact .refl _
  | succ n ih =>
    -- from its pick on, an attempt ends the call or leaves it to the attempts that remain
    have hsettle {d : Channel ς} {i : Nat} (hd : InRange d) (hi : i < d.created.length) (w : ω) :
        Leads (d, Task.queued { request := r, left := n, last } i)
          ((settle net r within n (d.callMember net i r within w)).2.1,
            .ended (some (settle net r within n (d.callMember net i r within w)).1)) := by
      have hin := callMember_inRange net hd i r within w
      refine (leads_queued net hi { request := r, left := n, last } within w).trans ?_
      dsimp only
      rcases hcall : d.callMember net i r within w with ⟨f | response, d', w'⟩
      · rw [hcall] at hin
        show Leads (Task.failed { request := r, left := n, last } f d') _
        unfold Task.failed settle
        by_cases hf : f.isRetryable = true
        · simp only [hf, if_true]
          exact ih (some f) hin.rotate w'
        · simp only [hf]
          exact .refl _
      · exact .refl _
    unfold Task.attempt
    dsimp only
    -- the pick is found at once, or after reconnecting, or not at all
    rcases hnext : c.next with ⟨_ | i, c₁⟩
    · obtain ⟨h₁, -⟩ := h.next hnext
      refine (leads_reconnect net _ c₁ w).trans ?_
      have h₂ := h₁.reconnect net w
      rcases hrec : c₁.reconnect net w with ⟨c₂, w₂⟩
      rw [hrec] at h₂
      unfold Task.pickAgain
      rcases hagain : c₂.next with ⟨_ | i, c₃⟩
      · have hpick : c.pick net w = (.error c₃.unavailable, c₃, w₂) := by
          simp only [pick, hnext, hrec, hagain]
        rw [Channel.attempt, hpick]
        exact .refl _
      · have hpick : c.pick net w = (.ok i, c₃, w₂) := by
          simp only [pick, hnext, hrec, hagain]
        obtain ⟨h₃, hi⟩ := h₂.next hagain
        rw [attempt_of_pick net hpick]
        exact hsettle h₃ (hi rfl) w₂
    · have hpick : c.pick net w = (.ok i, c₁, w) := by
        simp only [pick, hnext]
      obtain ⟨h₁, hi⟩ := h.next hnext
      rw [attempt_of_pick net hpick]
      exact hsettle h₁ (hi rfl) w

theorem leads_invoke (r : Wire.Request) (h : InRange c) (w : ω) :
    Leads (beginInvoke r c) ((c.invoke net r w).2.1, .ended (some (c.invoke net r w).1)) := by
  unfold beginInvoke invoke
  split
  · exact .refl _
  · exact leads_attempt net r _ _ none h w

/-! ## Operations -/

theorem lone_enter (h : s.AtRest) (turn : Channel ς × Task) :
    Lone (s.enter turn) s.tasks.length turn := by
  refine ⟨rfl, List.getElem?_concat_length .., fun u hu => ?_⟩
  rw [(turned_enter turn).task u, if_neg hu]
  obtain ⟨r, hr⟩ := h.task u
  rw [hr]; rfl

/-- A newcomer to a channel at rest comes to what a lone task comes to. -/
theorem alone (h : s.AtRest) {a : Act ς} {turn : Channel ς × Task} (ha : s.act a = s.enter turn)
    {c : Channel ς} {r : Option (Except Fault Json.Value)} (hleads : Leads turn (c, .ended r)) :
    ∃ acts, (s.run (a :: acts)).channel = c ∧ (s.run (a :: acts)).AtRest ∧
      (s.run (a :: acts)).task s.tasks.length = .ended r := by
  obtain ⟨acts, hacts⟩ := hleads _ _ (lone_enter h turn)
  have hrun : s.run (a :: acts) = (s.enter turn).run acts := by
    rw [← ha]; rfl
  refine ⟨acts, ?_⟩
  rw [hrun]
  refine ⟨hacts.channel, fun k hk => ?_, task_of_mem hacts.task⟩
  obtain ⟨u, hu⟩ := List.mem_iff_getElem?.1 hk
  rcases hacts.task_cases u with ht | ht
  · rw [← task_of_mem hu, ht]; rfl
  · rwa [task_of_mem hu] at ht

/-- To close a channel at rest is to close it in the midst of nobody. -/
theorem close_alone (h : s.AtRest) : ∃ acts, (s.run (.close :: acts)).channel = s.channel.close ∧
    (s.run (.close :: acts)).AtRest := by
  obtain ⟨acts, hchannel, hrest, -⟩ := alone h (a := .close) rfl (leads_close s.channel)
  exact ⟨acts, hchannel, hrest⟩

theorem update_alone (h : s.AtRest) (set : Addresses) (w : ω) :
    ∃ acts, (s.run (.update set :: acts)).channel = (s.channel.apply net set.1 w).1 ∧
      (s.run (.update set :: acts)).AtRest := by
  obtain ⟨acts, hchannel, hrest, -⟩ := alone h (a := .update set) rfl (leads_update net set s.channel w)
  exact ⟨acts, hchannel, hrest⟩

theorem invoke_alone (h : s.AtRest) (hin : InRange s.channel) (r : Wire.Request) (w : ω) :
    ∃ acts, (s.run (.invoke r :: acts)).channel = (s.channel.invoke net r w).2.1 ∧
      (s.run (.invoke r :: acts)).AtRest ∧ (s.run (.invoke r :: acts)).task s.tasks.length =
        .ended (some (s.channel.invoke net r w).1) :=
  alone h rfl (leads_invoke net r hin w)

end Traffic
end Muster.Channel
