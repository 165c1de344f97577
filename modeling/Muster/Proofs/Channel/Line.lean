/-
What the users of one subchannel can rely on. One of them at most has the stream; while nobody has
it, the state tells whether there is one. A subchannel that has been shut down stays so, and when
somebody has come back from shutting it down, nobody gets through any more.
-/
import Mathlib.Data.List.Induction
import Muster.Channel.Line
import Muster.Proofs.Channel.Settled

namespace Muster.Channel

variable {ς : Type}

namespace Stage

/-- Waits for something. -/
def waits : Stage → Bool
  | ended _ | dropped => false
  | _ => true

/-- What somebody has the stream for. -/
def grip : Stage → Option Grip
  | dialing _ => some .dial
  | exchanging _ => some .exchange
  | _ => none

theorem grip_of_not_holds {k : Stage} (h : k.holds = false) : k.grip = none := by
  cases k with
  | dialing | exchanging => cases h
  | queued | leaving | ended | dropped => rfl

/-- What a subchannel is like while somebody is that far. -/
def Suits (c : Subchannel ς) : Stage → Prop
  | leaving => c.state = .shutdown
  | dialing _ => c.Dialed
  | exchanging _ => c.Busy
  | _ => True

theorem suits_of_fits {c : Subchannel ς} {k : Stage} (h : c.Fits k.grip) (hk : k ≠ leaving) :
    k.Suits c := by
  cases k with
  | leaving => exact absurd rfl hk
  | dialing | exchanging => exact h
  | queued | ended | dropped => trivial

theorem Suits.fits {c : Subchannel ς} {k : Stage} (h : k.Suits c) (hk : k.holds = true) :
    c.Fits k.grip := by
  cases k with
  | dialing | exchanging => exact h
  | queued | leaving | ended | dropped => cases hk

/-- Those who do not have the stream need no more of a subchannel than that it stays shut down. -/
theorem Suits.mono {c d : Subchannel ς} {k : Stage} (h : k.Suits c) (hk : k.holds = false)
    (hshut : c.state = .shutdown → d.state = .shutdown) : k.Suits d := by
  cases k with
  | leaving => exact hshut h
  | dialing | exchanging => cases hk
  | queued | ended | dropped => trivial

/-- How far somebody may be who has come too late: it has not got through, and when it has come to an
end, it has been told that the subchannel is shut down. -/
def Late (addr : String) : Stage → Prop
  | ended (.connected r) => r = .error (Subchannel.shutDownFault addr)
  | ended (.called r) => r = .error (Subchannel.shutDownFault addr)
  | dialing _ | exchanging _ => False
  | _ => True

theorem late_failed (addr : String) (call : Option Wire.Request) :
    (ended (.failed (Subchannel.shutDownFault addr) call)).Late addr := by
  cases call <;> exact rfl

end Stage

namespace Line

variable {s s' : Line ς} {a : Act ς}

/-! ## Turns -/

/-- Whom a step lets go on, from what it waited for, and what comes of it. -/
inductive Turn (s : Line ς) : Act ς → Nat → Stage → Subchannel ς × Stage → Prop
  | refused {t : Nat} {call : Option Wire.Request} {f : Fault} : s.free = true →
      s.sub.approach = .refused f →
      Turn s (.stream t) t (.queued call) (s.sub, .ended (.failed f call))
  | standing {t : Nat} {call : Option Wire.Request} {stream : ς} : s.free = true →
      s.sub.approach = .standing stream → Turn s (.stream t) t (.queued call) (s.sub, .onward call)
  | dial {t : Nat} {call : Option Wire.Request} : s.free = true → s.sub.approach = .dialing →
      Turn s (.stream t) t (.queued call) (s.sub.beginConnect, .dialing call)
  | leave {t : Nat} : s.free = true →
      Turn s (.stream t) t .leaving (s.sub.endShutdown, .ended .shutDown)
  | connected {t : Nat} {call : Option Wire.Request} {stream : ς} :
      Turn s (.connected t (.ok stream)) t (.dialing call)
        (s.sub.endConnect (.ok stream), .onward call)
  | failed {t : Nat} {call : Option Wire.Request} {f : Fault} :
      Turn s (.connected t (.error f)) t (.dialing call)
        (s.sub.endConnect (.error f), .ended (.failed f call))
  | answered {t : Nat} {request : Wire.Request} {r : Except Fault Wire.Response} :
      Turn s (.answered t r) t (.exchanging request) (s.sub.endExchange r, .ended (.called r))
  | drop {t : Nat} {k : Stage} : k.waits = true → Turn s (.drop t) t k (s.sub, .dropped)

/-- The line after a turn. -/
def turned (s : Line ς) (t : Nat) (turn : Subchannel ς × Stage) : Line ς :=
  { sub := turn.1, users := s.users.set t turn.2 }

theorem proceed_cases {t : Nat} {turn? : Stage → Option (Subchannel ς × Stage)}
    (h : ∀ {old turn}, turn? old = some turn → Turn s a t old turn) :
    s.proceed t turn? = s ∨ ∃ old turn, s.users[t]? = some old ∧ Turn s a t old turn ∧
      s.proceed t turn? = s.turned t turn := by
  unfold proceed
  split
  · exact .inl rfl
  · rename_i c k hbind
    obtain ⟨old, hold, hturn⟩ := Option.bind_eq_some_iff.1 hbind
    exact .inr ⟨old, (c, k), hold, h hturn, rfl⟩

/-- A step is somebody's turn, or somebody comes, or it is not due and changes nothing. -/
theorem act_cases (s : Line ς) (a : Act ς) :
    s.act a = s ∨ (∃ call, a = .come call) ∨ a = .shutDown ∨
      ∃ t old turn, s.users[t]? = some old ∧ Turn s a t old turn ∧ s.act a = s.turned t turn := by
  have due {t : Nat} {turn? : Stage → Option (Subchannel ς × Stage)}
      (h : ∀ {old turn}, turn? old = some turn → Turn s a t old turn)
      (ha : s.act a = s.proceed t turn?) :
      s.act a = s ∨ (∃ call, a = .come call) ∨ a = .shutDown ∨
        ∃ t old turn, s.users[t]? = some old ∧ Turn s a t old turn ∧ s.act a = s.turned t turn := by
    rw [ha]
    exact (proceed_cases h).imp_right fun h => .inr (.inr ⟨t, h⟩)
  cases a with
  | come call => exact .inr (.inl ⟨call, rfl⟩)
  | shutDown => exact .inr (.inr (.inl rfl))
  | stream t =>
    by_cases hfree : s.free = true
    · refine due (fun {old turn} h => ?_) (if_pos hfree)
      cases old with
      | queued call =>
        simp only [Stage.stream?] at h
        split at h
        · cases h; exact .refused hfree ‹_›
        · cases h; exact .standing hfree ‹_›
        · cases h; exact .dial hfree ‹_›
      | leaving => cases h; exact .leave hfree
      | dialing | exchanging | ended | dropped => cases h
    · exact .inl (if_neg hfree)
  | connected t r =>
    refine due (fun {old turn} h => ?_) rfl
    cases old with
    | dialing call =>
      cases r with
      | ok stream => cases h; exact .connected
      | error f => cases h; exact .failed
    | queued | leaving | exchanging | ended | dropped => cases h
  | answered t r =>
    refine due (fun {old turn} h => ?_) rfl
    cases old with
    | exchanging request => cases h; exact .answered
    | queued | leaving | dialing | ended | dropped => cases h
  | drop t =>
    refine due (fun {old turn} h => ?_) rfl
    cases old with
    | queued | leaving | dialing | exchanging => cases h; exact .drop rfl
    | ended | dropped => cases h

theorem run_concat (s : Line ς) (as : List (Act ς)) (a : Act ς) :
    s.run (as ++ [a]) = (s.run as).act a :=
  List.foldl_append

/-- What every step of a run keeps, the run keeps. -/
theorem run_keeps {P : Line ς → Prop} {acts : List (Act ς)} (hs : P s)
    (hstep : ∀ s, ∀ a ∈ acts, P s → P (s.act a)) : P (s.run acts) :=
  List.foldlRecOn acts Line.act hs fun s h a ha => hstep s a ha h

/-- Unless somebody comes, a step is somebody's turn, or changes nothing. -/
theorem due_cases (s : Line ς) {a : Act ς} (hcome : ∀ call, a ≠ .come call) (hshut : a ≠ .shutDown) :
    s.act a = s ∨ ∃ t old turn, s.users[t]? = some old ∧ Turn s a t old turn ∧
      s.act a = s.turned t turn := by
  rcases act_cases s a with hs | ⟨call, rfl⟩ | rfl | hturn
  · exact .inl hs
  · exact absurd rfl (hcome call)
  · exact absurd rfl hshut
  · exact .inr hturn

theorem free_iff : s.free = true ↔ ∀ k ∈ s.users, k.holds = false := by
  unfold free
  rw [Bool.not_eq_true', List.any_eq_false]
  simp only [Bool.not_eq_true]

theorem free_concat {sub : Subchannel ς} {new : Stage} :
    ({ sub, users := s.users ++ [new] } : Line ς).free = true ↔ s.free = true ∧ new.holds = false := by
  simp only [free_iff, List.mem_append, List.mem_singleton, or_imp, forall_and, forall_eq]

/-- Who is there after a turn: the one whose turn it was, as far as it has come, and the others. -/
theorem turned_getElem? {t u : Nat} {old k : Stage} {turn : Subchannel ς × Stage}
    (h : s.users[t]? = some old) (hu : (s.turned t turn).users[u]? = some k) :
    u = t ∧ k = turn.2 ∨ u ≠ t ∧ s.users[u]? = some k := by
  obtain ⟨ht, -⟩ := List.getElem?_eq_some_iff.1 h
  have hset : (s.users.set t turn.2)[u]? = some k := hu
  rw [List.getElem?_set] at hset
  by_cases hut : t = u
  · rw [if_pos hut, if_pos ht] at hset
    exact .inl ⟨hut.symm, (Option.some.inj hset).symm⟩
  · rw [if_neg hut] at hset
    exact .inr ⟨Ne.symm hut, hset⟩

/-- Who is there when somebody has come. -/
theorem concat_getElem? {u : Nat} {k new : Stage} (hu : (s.users ++ [new])[u]? = some k) :
    s.users[u]? = some k ∨ k = new := by
  rw [List.getElem?_append] at hu
  split at hu
  · exact .inl hu
  · exact .inr (List.mem_singleton.1 (List.mem_of_getElem? hu))

/-! ## Who has the stream -/

/-- One user at most has the stream; the subchannel is as each of them expects it, and settled if
nobody has the stream. -/
structure Orderly (s : Line ς) : Prop where
  alone : ∀ {t u : Nat} {j k : Stage}, s.users[t]? = some j → s.users[u]? = some k →
    j.holds = true → k.holds = true → t = u
  settled : s.free = true → s.sub.Settled
  suits : ∀ {k : Stage}, k ∈ s.users → k.Suits s.sub

theorem orderly_ofAddr (addr : String) : Orderly (ofAddr addr : Line ς) :=
  ⟨nofun, fun _ => Subchannel.settled_new addr, nofun⟩

variable {t : Nat} {old : Stage} {turn : Subchannel ς × Stage}

/-- Whose turn it is has found the stream free, or has had it, or is dropped. -/
theorem Turn.holder (h : Turn s a t old turn) :
    s.free = true ∨ old.holds = true ∨ turn = (s.sub, .dropped) := by
  cases h with
  | refused hfree | standing hfree | dial hfree | leave hfree => exact .inl hfree
  | connected | failed | answered => exact .inr (.inl rfl)
  | drop => exact .inr (.inr rfl)

/-- What a turn makes of the subchannel. -/
theorem Turn.change (h : Turn s a t old turn) (hleave : old = .leaving → s.sub.state = .shutdown) :
    Change (s.free = true) old.grip s.sub turn.2.grip turn.1 := by
  cases h with
  | @refused _ call => cases call <;> exact .stay
  | @standing _ call _ hfree ha =>
    cases call with
    | none => exact .stay
    | some r => exact .exchange hfree ha
  | dial hfree ha => exact .dial hfree ha
  | leave hfree => exact .leave hfree (hleave rfl)
  | @connected _ call stream =>
    cases call with
    | none => exact .connected (.ok stream)
    | some r => exact .standing stream
  | @failed _ call f => cases call <;> exact .connected (.error f)
  | answered => exact .answered _
  | drop => exact .release

/-- Nobody begins to leave but who comes for that. -/
theorem Turn.not_leaving (h : Turn s a t old turn) : turn.2 ≠ .leaving := by
  cases h with
  | @refused _ call | @standing _ call | @connected _ call | @failed _ call => cases call <;> exact nofun
  | dial | leave | answered | drop => exact nofun

namespace Orderly

/-- When one user has the stream, or nobody has, the others have not. -/
theorem others (h : Orderly s) (ht : s.users[t]? = some old)
    (hold : s.free = true ∨ old.holds = true) {u : Nat} {k : Stage} (hu : s.users[u]? = some k)
    (hut : u ≠ t) : k.holds = false := by
  rcases hold with hfree | hold
  · exact free_iff.1 hfree k (List.mem_of_getElem? hu)
  · rw [← Bool.not_eq_true]
    exact fun hk => hut (h.alone hu ht hk hold)

theorem fits (h : Orderly s) (ht : s.users[t]? = some old)
    (hold : s.free = true ∨ old.holds = true) : s.sub.Fits old.grip := by
  have hmem := List.mem_of_getElem? ht
  rcases hold with hfree | hold
  · rw [Stage.grip_of_not_holds (free_iff.1 hfree old hmem)]
    exact h.settled hfree
  · exact (h.suits hmem).fits hold

/-- The turn of somebody who could work on the subchannel. -/
theorem worked (h : Orderly s) (ht : s.users[t]? = some old) (hturn : Turn s a t old turn)
    (hold : s.free = true ∨ old.holds = true) : Orderly (s.turned t turn) := by
  have hchange := hturn.change fun hleaving => by
    have hsuits := h.suits (List.mem_of_getElem? ht)
    rwa [hleaving] at hsuits
  have hfits : turn.1.Fits turn.2.grip := hchange.fits (h.fits ht hold)
  have hothers {u : Nat} {k : Stage} (hu : (s.turned t turn).users[u]? = some k) (hut : u ≠ t) :
      k.holds = false := by
    rcases turned_getElem? ht hu with ⟨rfl, -⟩ | ⟨-, hk⟩
    · exact absurd rfl hut
    · exact h.others ht hold hk hut
  refine ⟨fun {u v j k} hu hv hj hk => ?_, fun _ => hfits.settled, fun {k} hmem => ?_⟩
  · have hut : u = t := by
      by_contra hut
      rw [hothers hu hut] at hj; cases hj
    have hvt : v = t := by
      by_contra hvt
      rw [hothers hv hvt] at hk; cases hk
    exact hut.trans hvt.symm
  · obtain ⟨u, hu⟩ := List.mem_iff_getElem?.1 hmem
    rcases turned_getElem? ht hu with ⟨-, rfl⟩ | ⟨hut, hk⟩
    · exact Stage.suits_of_fits hfits hturn.not_leaving
    · exact (h.suits (List.mem_of_getElem? hk)).mono (h.others ht hold hk hut) hchange.shut

/-- Somebody is dropped who has not got the stream. -/
theorem dismissed (h : Orderly s) (ht : s.users[t]? = some old) (hold : old.holds = false) :
    Orderly (s.turned t (s.sub, .dropped)) := by
  refine ⟨fun {u v j k} hu hv hj hk => ?_, fun hfree => h.settled ?_, fun {k} hmem => ?_⟩
  · rcases turned_getElem? ht hu with ⟨-, rfl⟩ | ⟨-, hu⟩
    · cases hj
    · rcases turned_getElem? ht hv with ⟨-, rfl⟩ | ⟨-, hv⟩
      · cases hk
      · exact h.alone hu hv hj hk
  · refine free_iff.2 fun k hmem => ?_
    obtain ⟨u, hu⟩ := List.mem_iff_getElem?.1 hmem
    by_cases hut : t = u
    · subst hut
      rw [ht] at hu
      cases hu
      exact hold
    · exact free_iff.1 hfree k (List.mem_of_getElem? ((List.getElem?_set_ne hut).trans hu))
  · obtain ⟨u, hu⟩ := List.mem_iff_getElem?.1 hmem
    rcases turned_getElem? ht hu with ⟨-, rfl⟩ | ⟨-, hk⟩
    · trivial
    · exact h.suits (List.mem_of_getElem? hk)

/-- Somebody comes, or begins to shut down. -/
theorem joined (h : Orderly s) {sub : Subchannel ς} {new : Stage} (hnew : new.holds = false)
    (hself : new.Suits sub) (hsub : s.sub.Settled → sub.Settled)
    (hsuits : ∀ {k : Stage}, k.Suits s.sub → k.Suits sub) :
    Orderly { sub, users := s.users ++ [new] } := by
  refine ⟨fun {u v j k} hu hv hj hk => ?_, fun hfree => hsub (h.settled ?_), fun {k} hmem => ?_⟩
  · rcases concat_getElem? hu with hu | rfl
    · rcases concat_getElem? hv with hv | rfl
      · exact h.alone hu hv hj hk
      · rw [hnew] at hk; cases hk
    · rw [hnew] at hj; cases hj
  · exact (free_concat.1 hfree).1
  · rcases List.mem_append.1 hmem with hmem | hmem
    · exact hsuits (h.suits hmem)
    · rw [List.mem_singleton.1 hmem]; exact hself

theorem act (h : Orderly s) (a : Act ς) : Orderly (s.act a) := by
  rcases act_cases s a with hs | ⟨call, rfl⟩ | rfl | ⟨t, old, turn, ht, hturn, hs⟩
  · rw [hs]; exact h
  · exact h.joined rfl trivial id id
  · refine h.joined rfl rfl (fun _ => Subchannel.settled_beginShutdown s.sub) fun {k} hk => ?_
    cases k with
    | leaving => rfl
    | dialing => exact hk.beginShutdown
    | exchanging => exact hk.beginShutdown
    | queued | ended | dropped => trivial
  · rw [hs]
    rcases hturn.holder with hfree | hold | rfl
    · exact h.worked ht hturn (.inl hfree)
    · exact h.worked ht hturn (.inr hold)
    · cases hold : old.holds with
      | true => exact h.worked ht hturn (.inr hold)
      | false => exact h.dismissed ht hold

end Orderly

theorem orderly_run (addr : String) (acts : List (Act ς)) :
    Orderly ((ofAddr addr : Line ς).run acts) :=
  run_keeps (orderly_ofAddr addr) fun _ a _ h => h.act a

/-! ## No connect is left behind -/

/-- A subchannel is connecting only while somebody waits for the connect. -/
def Attended (s : Line ς) : Prop := s.free = true → s.sub.state ≠ .connecting

/-- Unless somebody is dropped, no connect is left behind. -/
theorem Attended.act (h : Attended s) (ho : Orderly s) (ha : ∀ t, a ≠ .drop t) :
    Attended (s.act a) := by
  intro hafter
  rcases act_cases s a with hs | ⟨call, rfl⟩ | rfl | ⟨t, old, turn, ht, hturn, hs⟩
  · rw [hs] at hafter ⊢; exact h hafter
  · exact h (free_concat.1 hafter).1
  · exact nofun
  · rw [hs] at hafter ⊢
    have hsuits := ho.suits (List.mem_of_getElem? ht)
    have hself := free_iff.1 hafter _ (List.mem_set (List.getElem?_eq_some_iff.1 ht).1 turn.2)
    show turn.1.state ≠ .connecting
    cases hturn with
    | refused hfree | standing hfree => exact h hfree
    | dial => cases hself
    | leave hfree => exact h hfree
    | connected | failed => exact Subchannel.endConnect_not_connecting _ _
    | answered => exact Subchannel.Busy.endExchange_not_connecting hsuits _
    | drop => exact absurd rfl (ha _)

theorem attended_run (addr : String) (acts : List (Act ς)) (h : ∀ t, Act.drop t ∉ acts) :
    Attended ((ofAddr addr : Line ς).run acts) := by
  refine (run_keeps (P := fun s => Orderly s ∧ Attended s) ⟨orderly_ofAddr addr, fun _ => nofun⟩ ?_).2
  rintro s a ha ⟨ho, hs⟩
  refine ⟨ho.act a, hs.act ho ?_⟩
  rintro t rfl
  exact h t ha

/-! ## After shutting down -/

theorem shut_act (h : s.sub.state = .shutdown) (a : Act ς) : (s.act a).sub.state = .shutdown := by
  rcases act_cases s a with hs | ⟨call, rfl⟩ | rfl | ⟨t, old, turn, ht, hturn, hs⟩
  · rw [hs]; exact h
  · exact h
  · rfl
  · rw [hs]; exact (hturn.change fun _ => h).shut h

theorem shut_run (h : s.sub.state = .shutdown) (acts : List (Act ς)) :
    (s.run acts).sub.state = .shutdown :=
  run_keeps (P := fun s => s.sub.state = .shutdown) h fun _ a _ h => shut_act h a

/-- Nobody gets through any more. -/
structure Over (s : Line ς) : Prop where
  state : s.sub.state = .shutdown
  stream : s.sub.stream = none
  free : s.free = true

theorem Turn.addr (h : Turn s a t old turn) : turn.1.addr = s.sub.addr := by
  cases h with
  | refused | standing | drop | leave => rfl
  | dial => exact Subchannel.enter_addr _ _
  | connected | failed => exact Subchannel.endConnect_addr _ _
  | answered => exact Subchannel.endExchange_addr _ _

theorem addr_act (s : Line ς) (a : Act ς) : (s.act a).sub.addr = s.sub.addr := by
  rcases act_cases s a with hs | ⟨call, rfl⟩ | rfl | ⟨t, old, turn, ht, hturn, hs⟩
  · rw [hs]
  · rfl
  · rfl
  · rw [hs]; exact hturn.addr

theorem addr_run (s : Line ς) (acts : List (Act ς)) : (s.run acts).sub.addr = s.sub.addr :=
  run_keeps (P := fun s' => s'.sub.addr = s.sub.addr) rfl fun s' a _ h => (addr_act s' a).trans h

namespace Over

/-- When a line is over, whoever waits is refused, leaves, or is dropped. -/
theorem after_turn (h : Over s) (ht : s.users[t]? = some old) (hturn : Turn s a t old turn) :
    turn.1.stream = none ∧ turn.2.holds = false ∧ turn.2.Late s.sub.addr := by
  have hold := free_iff.1 h.free old (List.mem_of_getElem? ht)
  cases hturn with
  | @refused _ call _ _ ha =>
    obtain ⟨-, rfl⟩ := Subchannel.approach_refused ha
    exact ⟨h.stream, rfl, Stage.late_failed _ call⟩
  | standing _ ha => exact absurd h.state (Subchannel.approach_standing ha).1
  | dial _ ha => exact absurd h.state (Subchannel.approach_dialing ha).1
  | leave => exact ⟨rfl, rfl, trivial⟩
  | connected | failed | answered => cases hold
  | drop => exact ⟨h.stream, rfl, trivial⟩

/-- Nobody gets the stream any more. -/
theorem act (h : Over s) (a : Act ς) : Over (s.act a) := by
  have hstate := shut_act h.state a
  rcases act_cases s a with hs | ⟨call, rfl⟩ | rfl | ⟨t, old, turn, ht, hturn, hs⟩
  · rw [hs]; exact h
  · exact ⟨hstate, h.stream, free_concat.2 ⟨h.free, rfl⟩⟩
  · exact ⟨hstate, h.stream, free_concat.2 ⟨h.free, rfl⟩⟩
  · obtain ⟨hstream, hholds, -⟩ := h.after_turn ht hturn
    rw [hs] at hstate ⊢
    refine ⟨hstate, hstream, free_iff.2 fun k hmem => ?_⟩
    rcases List.mem_or_eq_of_mem_set hmem with hmem | rfl
    · exact free_iff.1 h.free k hmem
    · exact hholds

theorem run (h : Over s) (acts : List (Act ς)) : Over (s.run acts) :=
  run_keeps h fun _ a _ h => h.act a

/-- Whoever waits for the stream, to connect or to make a call, is told so when it gets it. -/
theorem refused {t : Nat} {call : Option Wire.Request} (h : Over s)
    (ht : s.users[t]? = some (.queued call)) :
    (s.act (.stream t)).users[t]? =
      some (.ended (.failed (Subchannel.shutDownFault s.sub.addr) call)) := by
  have happroach : s.sub.approach = .refused (Subchannel.shutDownFault s.sub.addr) := if_pos h.state
  have hact : s.act (.stream t) =
      s.turned t (s.sub, .ended (.failed (Subchannel.shutDownFault s.sub.addr) call)) := by
    show (if s.free = true then s.proceed t (Stage.stream? s.sub) else s) = _
    rw [if_pos h.free]
    unfold proceed
    rw [ht]
    simp only [Option.bind_some, Stage.stream?, happroach]
    rfl
  rw [hact]
  exact List.getElem?_set_self (List.getElem?_eq_some_iff.1 ht).1

end Over

/-- Whoever has come since there were `n` users has come too late. -/
def Belated (n : Nat) (s : Line ς) : Prop :=
  ∀ t k, n ≤ t → s.users[t]? = some k → k.Late s.sub.addr

theorem Belated.act {n : Nat} (h : Belated n s) (ho : Over s) (a : Act ς) : Belated n (s.act a) := by
  intro u k hu hk
  rw [addr_act]
  rcases act_cases s a with hs | ⟨call, rfl⟩ | rfl | ⟨t, old, turn, ht, hturn, hs⟩
  · rw [hs] at hk
    exact h u k hu hk
  · rcases concat_getElem? hk with hk | rfl
    · exact h u k hu hk
    · trivial
  · rcases concat_getElem? hk with hk | rfl
    · exact h u k hu hk
    · trivial
  · rw [hs] at hk
    rcases turned_getElem? ht hk with ⟨-, rfl⟩ | ⟨-, hk⟩
    · exact (ho.after_turn ht hturn).2.2
    · exact h u k hu hk

theorem Over.belated_run (h : Over s) (acts : List (Act ς)) :
    Belated s.users.length (s.run acts) := by
  have hnobody : Belated s.users.length s := by
    intro t k ht hk
    exact absurd (List.getElem?_eq_some_iff.1 hk).1 (Nat.not_lt.2 ht)
  refine (run_keeps (P := fun s' => Over s' ∧ Belated s.users.length s') ⟨h, hnobody⟩ ?_).2
  rintro s' a - ⟨ho, hs⟩
  exact ⟨ho.act a, hs.act ho a⟩

/-- When somebody comes back from shutting down, nobody gets through any more. -/
def Closed (s : Line ς) : Prop := Stage.ended .shutDown ∈ s.users → Over s

theorem Closed.act (h : Closed s) (ho : Orderly s) (a : Act ς) : Closed (s.act a) := by
  intro hmem
  by_cases hbefore : Stage.ended .shutDown ∈ s.users
  · exact (h hbefore).act a
  rcases act_cases s a with hs | ⟨call, rfl⟩ | rfl | ⟨t, old, turn, ht, hturn, hs⟩
  · rw [hs] at hmem; exact absurd hmem hbefore
  · exact absurd ((List.mem_append.1 hmem).resolve_right (by simp)) hbefore
  · exact absurd ((List.mem_append.1 hmem).resolve_right (by simp)) hbefore
  · rw [hs] at hmem ⊢
    have hnew : turn.2 = .ended .shutDown :=
      ((List.mem_or_eq_of_mem_set hmem).resolve_left hbefore).symm
    have hsuits := ho.suits (List.mem_of_getElem? ht)
    cases hturn with
    | leave hfree =>
      refine ⟨hsuits, rfl, free_iff.2 fun k hk => ?_⟩
      rcases List.mem_or_eq_of_mem_set hk with hk | rfl
      · exact free_iff.1 hfree k hk
      · rfl
    | @refused _ call | @failed _ call => cases call <;> cases hnew
    | @standing _ call | @connected _ call => cases call <;> cases hnew
    | dial | answered | drop => cases hnew

theorem closed_run (addr : String) (acts : List (Act ς)) :
    Closed ((ofAddr addr : Line ς).run acts) := by
  refine (run_keeps (P := fun s => Orderly s ∧ Closed s) ⟨orderly_ofAddr addr, nofun⟩ ?_).2
  rintro s a - ⟨ho, hs⟩
  exact ⟨ho.act a, hs.act ho a⟩

/-! ## A user alone

Whoever uses a subchannel alone does what the operations of a subchannel do. -/

/-- A line with one user. -/
def lone (turn : Subchannel ς × Stage) : Line ς := { sub := turn.1, users := [turn.2] }

theorem lone_proceed {a b : Subchannel ς × Stage} {f : Stage → Option (Subchannel ς × Stage)}
    (h : f a.2 = some b) : (lone a).proceed 0 f = lone b := by
  unfold proceed lone
  rw [List.getElem?_cons_zero, Option.bind_some, h]
  rfl

theorem lone_stream {a b : Subchannel ς × Stage} (hk : a.2.holds = false)
    (h : a.2.stream? a.1 = some b) : (lone a).act (.stream 0) = lone b := by
  have hfree : (lone a).free = true := free_iff.2 fun k hmem => by
    rw [List.mem_singleton.1 hmem, hk]
  exact (if_pos hfree).trans (lone_proceed h)

section Alone

variable {ω : Type} (net : Network ω ς) (c : Subchannel ς) (w : ω) (within : Nat)

/-- How far a connect takes a user. -/
def reached (call : Option Wire.Request) (c : Subchannel ς) (r : Except Fault ς) :
    Subchannel ς × Stage :=
  match r with
  | .ok _ => (c, .onward call)
  | .error f => (c, .ended (.failed f call))

theorem lone_connect (call : Option Wire.Request) : ∃ acts, (lone (c, .queued call)).run acts =
    lone (reached call (c.connect net within w).2.1 (c.connect net within w).1) := by
  unfold Subchannel.connect
  have hstream {b : Subchannel ς × Stage} (h : (Stage.queued call).stream? c = some b) :
      (lone (c, .queued call)).act (.stream 0) = lone b := lone_stream rfl h
  cases ha : c.approach with
  | refused f => exact ⟨[.stream 0], hstream (by simp only [Stage.stream?, ha]; rfl)⟩
  | standing stream => exact ⟨[.stream 0], hstream (by simp only [Stage.stream?, ha]; rfl)⟩
  | dialing =>
    obtain ⟨r, w'⟩ := net.connect c.addr within w
    refine ⟨[.stream 0, .connected 0 r], ?_⟩
    show ((lone (c, .queued call)).act (.stream 0)).act (.connected 0 r) = _
    rw [hstream (b := (c.beginConnect, .dialing call)) (by simp only [Stage.stream?, ha])]
    refine lone_proceed ?_
    cases r <;> rfl

theorem lone_call (r : Wire.Request) (connectWithin : Nat) :
    ∃ acts, (lone (c, .queued (some r))).run acts =
      lone ((c.call net connectWithin r within w).2.1,
        .ended (.called (c.call net connectWithin r within w).1)) := by
  obtain ⟨acts, h⟩ := lone_connect net c w connectWithin (some r)
  unfold Subchannel.call
  rcases hc : c.connect net connectWithin w with ⟨r', c', w'⟩
  rw [hc] at h
  cases r' with
  | error f => exact ⟨acts, h⟩
  | ok stream =>
    refine ⟨acts ++ [.answered 0 (Wire.exchange net stream r within w').1], ?_⟩
    rw [run_concat, h]
    show (lone (c', .exchanging r)).proceed 0 (Stage.answered? _ c') = _
    exact lone_proceed rfl

theorem lone_shutdown : ({ sub := c } : Line ς).run [.shutDown, .stream 0] =
    lone (c.shutdown, .ended .shutDown) :=
  lone_stream (a := (c.beginShutdown, .leaving)) rfl rfl

end Alone

/-! ## At any time -/

/-- Shutting down is for good: the state does not change any more, and when somebody has come back
from it there is no stream again, and whoever comes to connect or to make a call is kept from the
peer and told that the subchannel is shut down, as soon as the stream is free for it, which it is. -/
structure Terminal (addr : String) (s : Line ς) : Prop where
  kept : s.sub.state = .shutdown → ∀ more, (s.run more).sub.state = .shutdown
  done : Stage.ended .shutDown ∈ s.users → ∀ more, Over (s.run more)
  late : Stage.ended .shutDown ∈ s.users → ∀ more,
    ∀ t k, s.users.length ≤ t → (s.run more).users[t]? = some k → k.Late addr
  told : Stage.ended .shutDown ∈ s.users → ∀ more t call,
    (s.run more).users[t]? = some (.queued call) →
      ((s.run more).act (.stream t)).users[t]? =
        some (.ended (.failed (Subchannel.shutDownFault addr) call))

/-- Whatever its users do, and whatever comes of it: while nobody has the stream of a subchannel, a
ready one has a stream, only a ready one or one that is shut down has a stream, and none is connecting,
if nobody was dropped who waited for a connect. Shutting down is for good. -/
theorem state_matches_stream (addr : String) (acts : List (Act ς)) :
    let s := (ofAddr addr : Line ς).run acts
    (s.free = true →
      s.sub.Settled ∧ ((∀ t, Act.drop t ∉ acts) → s.sub.state ≠ .connecting)) ∧
    Terminal addr s := by
  intro s
  have haddr : s.sub.addr = addr := addr_run _ acts
  have hclosed : Closed s := closed_run addr acts
  refine ⟨fun hfree => ⟨(orderly_run addr acts).settled hfree,
    fun hdrop => attended_run addr acts hdrop hfree⟩, fun hshut => shut_run hshut,
    fun hmem => (hclosed hmem).run, fun hmem more t k ht hk => ?_, fun hmem more t call ht => ?_⟩
  · have hlate := (hclosed hmem).belated_run more t k ht hk
    rwa [addr_run, haddr] at hlate
  · have htold := ((hclosed hmem).run more).refused ht
    rwa [addr_run, haddr] at htold

end Line
end Muster.Channel
