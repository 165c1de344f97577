/-
Whose responses they are. While nobody is dropped in the middle of an exchange, whoever gets a stream
to exchange over finds nothing on it (`Aligned`): so the frame that comes back answers the request
that went out. Whoever is dropped in the middle leaves a frame behind, which the next one reads.
-/
import Muster.Channel.Talk
import Muster.Proofs.Channel.Line
import Muster.Proofs.Wire.Frame

namespace Muster.Channel.Talk

open Wire (Request Response Frame.write Frame.read)

variable {s : Talk} {l l' : Line Nat} {t u k : Nat} {r : Request}

/-! ## Who is exchanging -/

/-- Nobody is in the middle of an exchange. -/
def Quiet (l : Line Nat) : Prop := ∀ t, exchanging? l t = none

theorem exchanging?_eq_some : exchanging? l t = some r ↔ l.users[t]? = some (.exchanging r) := by
  unfold exchanging?
  split
  · rename_i heq
    rw [heq]
    simp
  · rename_i hno
    simp only [reduceCtorEq, false_iff]
    exact hno r

theorem quiet_of_free (h : l.free = true) : Quiet l := by
  intro t
  rw [← Option.not_isSome_iff_eq_none, Option.isSome_iff_exists]
  rintro ⟨r, hr⟩
  have hholds := Line.free_iff.1 h _ (List.mem_of_getElem? (exchanging?_eq_some.1 hr))
  cases hholds

theorem not_quiet (h : exchanging? l t = some r) : ¬ Quiet l := by
  intro hquiet
  rw [show exchanging? l t = none from hquiet t] at h
  cases h

/-- While somebody has the stream, nobody else is exchanging. -/
theorem others_quiet (h : l.Orderly) {k : Stage} (ht : l.users[t]? = some k) (hk : k.holds = true)
    (hu : u ≠ t) : exchanging? l u = none := by
  rw [← Option.not_isSome_iff_eq_none, Option.isSome_iff_exists]
  rintro ⟨r, hr⟩
  exact hu (h.alone (exchanging?_eq_some.1 hr) ht rfl hk)

theorem exchanging_unique {r' : Request} (h : l.Orderly) (ht : exchanging? l t = some r)
    (hu : exchanging? l u = some r') : r = r' := by
  have hut : u = t :=
    h.alone (exchanging?_eq_some.1 hu) (exchanging?_eq_some.1 ht) rfl rfl
  rw [hut, ht] at hu
  exact Option.some.inj hu

/-- After a turn, the one whose turn it was may be exchanging, and the others as before. -/
theorem exchanging?_turned (turn : Subchannel Nat × Stage) (hu : u ≠ t) :
    exchanging? (l.turned t turn) u = exchanging? l u := by
  unfold exchanging? Line.turned
  rw [List.getElem?_set_ne (Ne.symm hu)]

theorem exchanging?_ended {old k : Stage} {sub : Subchannel Nat} (ht : l.users[t]? = some old)
    (hk : ∀ r, k ≠ .exchanging r) : exchanging? (l.turned t (sub, k)) t = none := by
  rw [← Option.not_isSome_iff_eq_none, Option.isSome_iff_exists]
  rintro ⟨r, hr⟩
  have hset : (l.users.set t k)[t]? = some (.exchanging r) := exchanging?_eq_some.1 hr
  rw [List.getElem?_set_self (List.getElem?_eq_some_iff.1 ht).1] at hset
  exact hk r (Option.some.inj hset)

theorem exchanging?_of_ne {k : Stage} (ht : l.users[t]? = some k) (hk : ∀ r, k ≠ .exchanging r) :
    exchanging? l t = none := by
  rw [← Option.not_isSome_iff_eq_none, Option.isSome_iff_exists]
  rintro ⟨r, hr⟩
  rw [exchanging?_eq_some, ht] at hr
  exact hk r (Option.some.inj hr)

/-- Whoever joins is not exchanging yet. -/
theorem exchanging?_concat {sub : Subchannel Nat} {new : Stage} (hnew : ∀ r, new ≠ .exchanging r) :
    exchanging? { sub, users := l.users ++ [new] } t = exchanging? l t := by
  refine Option.ext fun r => ?_
  rw [exchanging?_eq_some, exchanging?_eq_some]
  constructor
  · intro ht
    exact (Line.concat_getElem? ht).resolve_right (hnew r).symm
  · intro ht
    exact (List.getElem?_append_left (List.getElem?_eq_some_iff.1 ht).1).trans ht

/-! ## What is on a stream -/

/-- What is under way while a request is exchanged: some of its frame is still to be written, or the
peer has not answered it, or some of the answer is still to be read. -/
inductive Midway (answered : List (List UInt8 × List UInt8)) (r : Request) : Progress → Pipe → Prop
  | sending {out rest : List UInt8} : Frame.write r.encode = .ok (out ++ rest) → rest ≠ [] →
      Midway answered r (.sending rest) { out }
  | sent {out : List UInt8} : Frame.write r.encode = .ok out →
      Midway answered r (.receiving []) { out }
  | answered {p got back : List UInt8} : (r.encode, p) ∈ answered →
      Frame.write p = .ok (got ++ back) → back ≠ [] → Midway answered r (.receiving got) { back }

/-- A result comes from the answer to the request, or from a break, or the request was too large. -/
inductive Fair (answered : List (List UInt8 × List UInt8)) (r : Request) :
    Except Fault Response → Prop
  | answered {p : List UInt8} : (r.encode, p) ∈ answered → Fair answered r (r.accept p)
  | broken (b : Break) : Fair answered r (.error b.fault)
  | tooLarge {f : Fault} : Frame.write r.encode = .error f → Fair answered r (.error f)

theorem Midway.mono {answered answered' : List (List UInt8 × List UInt8)} {progress : Progress}
    {pipe : Pipe} (h : Midway answered r progress pipe) (hsub : answered ⊆ answered') :
    Midway answered' r progress pipe := by
  cases h with
  | sending hwrite hrest => exact .sending hwrite hrest
  | sent hwrite => exact .sent hwrite
  | answered hmem hwrite hback => exact .answered (hsub hmem) hwrite hback

theorem Fair.mono {answered answered' : List (List UInt8 × List UInt8)}
    {x : Except Fault Response} (h : Fair answered r x) (hsub : answered ⊆ answered') :
    Fair answered' r x := by
  cases h with
  | answered hmem => exact .answered (hsub hmem)
  | broken b => exact .broken b
  | tooLarge hwrite => exact .tooLarge hwrite

/-- Nobody finds anything on the stream that somebody else has left. -/
structure Aligned (s : Talk) : Prop where
  orderly : s.line.Orderly
  clear : Quiet s.line → ∀ {k}, s.line.sub.stream = some k → s.pipes[k]? = some {}
  midway : ∀ {t r}, exchanging? s.line t = some r → ∃ k pipe, s.line.sub.stream = some k ∧
    s.pipes[k]? = some pipe ∧ Midway s.answered r s.progress pipe
  fair : ∀ {r x}, (r, x) ∈ s.results → Fair s.answered r x

namespace Aligned

theorem ofAddr (addr : String) : Aligned (ofAddr addr) := by
  refine ⟨Line.orderly_ofAddr addr, fun _ {k} hk => ?_, fun ht => ?_, nofun⟩
  · cases hk
  · cases ht

/-- An exchange ends. After a failure there is no stream any more. -/
theorem finish (ho : s.line.Orderly) (hr : exchanging? s.line t = some r)
    (hfair : ∀ {r x}, (r, x) ∈ s.results → Fair s.answered r x) {x : Except Fault Response}
    (hx : Fair s.answered r x)
    (hclear : ∀ {response}, x = .ok response → ∀ {k}, s.line.sub.stream = some k → s.pipes[k]? = some {}) :
    Aligned (s.finish t r x) := by
  have ht := exchanging?_eq_some.1 hr
  have hact : s.line.act (.answered t x) = s.line.turned t (s.line.sub.endExchange x, .ended (.called x)) := by
    show s.line.proceed t (Stage.answered? x s.line.sub) = _
    unfold Line.proceed
    rw [ht]
    rfl
  have hquiet : Quiet (s.line.act (.answered t x)) := by
    intro u
    rw [hact]
    by_cases hu : u = t
    · subst hu
      unfold exchanging? Line.turned
      rw [List.getElem?_set_self (List.getElem?_eq_some_iff.1 ht).1]
    · rw [exchanging?_turned _ hu]
      exact others_quiet ho ht rfl hu
  refine ⟨ho.act (.answered t x), fun _ {k} hk => ?_, fun {u r'} hu => ?_, fun {r' x'} hmem => ?_⟩
  · have hk' : (s.line.act (.answered t x)).sub.stream = some k := hk
    rw [hact] at hk'
    cases x with
    | ok response => exact hclear rfl hk'
    | error f =>
      have hnone : (s.line.sub.endExchange (.error f)).stream = none :=
        (Subchannel.endExchange_error _ f).1
      rw [show (s.line.turned t (s.line.sub.endExchange (.error f), _)).sub.stream = none from hnone] at hk'
      cases hk'
  · have hnone : exchanging? (s.line.act (.answered t x)) u = none := hquiet u
    have hsome : exchanging? (s.line.act (.answered t x)) u = some r' := hu
    rw [hnone] at hsome
    cases hsome
  · rcases List.mem_append.1 hmem with hmem | hmem
    · exact hfair hmem
    · cases List.mem_singleton.1 hmem
      exact hx

/-- Somebody goes on over a stream that nobody exchanges over, and may begin an exchange. -/
theorem goOn (ho : l'.Orderly) (hwas : exchanging? s.line t = none)
    (hothers : ∀ u, u ≠ t → exchanging? l' u = none)
    (hclear : ∀ {k}, l'.sub.stream = some k → s.pipes[k]? = some {})
    (hfair : ∀ {r x}, (r, x) ∈ s.results → Fair s.answered r x) : Aligned (s.goOn t l') := by
  unfold Talk.goOn
  rw [hwas]
  rcases hr : exchanging? l' t with _ | r
  · have hquiet : Quiet l' := by
      intro u
      by_cases hu : u = t
      · rw [hu, hr]
      · exact hothers u hu
    refine ⟨ho, fun _ {k} hk => hclear hk, fun {u r} hu => ?_, hfair⟩
    rw [show exchanging? l' u = none from hquiet u] at hu
    cases hu
  · dsimp only
    split
    · rename_i f hwrite
      exact finish (s := { s with line := l' }) ho hr hfair (.tooLarge hwrite) nofun
    · rename_i bytes hwrite
      obtain ⟨k, hk⟩ := Option.isSome_iff_exists.1
        (ho.suits (List.mem_of_getElem? (exchanging?_eq_some.1 hr))).stream
      refine ⟨ho, fun hquiet => absurd hquiet (not_quiet hr), fun {u r'} hu => ?_, hfair⟩
      obtain rfl := exchanging_unique ho hr hu
      exact ⟨k, {}, hk, hclear hk, .sending hwrite (Wire.Frame.write_ne_nil hwrite)⟩

/-- Somebody comes or goes who is not exchanging. -/
theorem aside (h : Aligned s) (ho : l'.Orderly) (hstream : l'.sub.stream = s.line.sub.stream)
    (hsame : ∀ t, exchanging? l' t = exchanging? s.line t) : Aligned { s with line := l' } := by
  refine ⟨ho, fun hquiet {k} hk => ?_, fun {u r} hu => ?_, h.fair⟩
  · exact h.clear (fun t => (hsame t).symm.trans (hquiet t)) (hstream ▸ hk)
  · obtain ⟨k, pipe, hk, hpipe, hmid⟩ := h.midway ((hsame u).symm.trans hu)
    exact ⟨k, pipe, hstream.trans hk, hpipe, hmid⟩

/-- Something goes over the stream of an exchange. -/
theorem moved (h : Aligned s) (hr : exchanging? s.line t = some r)
    (hk : s.line.sub.stream = some k) {pipes : List Pipe} {progress : Progress}
    {answered : List (List UInt8 × List UInt8)} {pipe : Pipe} (hpipe : pipes[k]? = some pipe)
    (hmid : Midway answered r progress pipe) (hsub : s.answered ⊆ answered) :
    Aligned { s with pipes, progress, answered } := by
  refine ⟨h.orderly, fun hquiet => absurd hquiet (not_quiet hr), fun {u r'} hu => ?_,
    fun hmem => (h.fair hmem).mono hsub⟩
  obtain rfl := exchanging_unique h.orderly hr hu
  exact ⟨k, pipe, hk, hpipe, hmid⟩

/-- A byte goes out. -/
theorem send (h : Aligned s) (t : Nat) : Aligned (s.send t) := by
  unfold Talk.send
  split
  · rename_i r k b rest hr hk hprogress
    obtain ⟨k', pipe, hk', hpipe, hmid⟩ := h.midway hr
    obtain rfl : k = k' := Option.some.inj (hk.symm.trans hk')
    rw [hprogress] at hmid
    cases hmid with
    | @sending out _ hwrite _ =>
      have hpipe' : (s.pipes.modify k fun p => { p with out := p.out ++ [b] })[k]? =
          some { out := out ++ [b] } := by
        rw [List.getElem?_modify_eq, hpipe]
        rfl
      refine h.moved hr hk hpipe' ?_ (List.Subset.refl _)
      cases rest with
      | nil => exact .sent hwrite
      | cons b' rest =>
        rw [List.append_cons] at hwrite
        exact .sending hwrite nofun
  · exact h

/-- A byte comes in. -/
theorem receive (h : Aligned s) (t : Nat) : Aligned (s.receive t) := by
  unfold Talk.receive
  split
  · rename_i r k got hr hk hprogress
    split
    · rename_i out b back hpipe
      obtain ⟨k', pipe, hk', hpipe', hmid⟩ := h.midway hr
      obtain rfl : k = k' := Option.some.inj (hk.symm.trans hk')
      obtain rfl := Option.some.inj (hpipe.symm.trans hpipe')
      rw [hprogress] at hmid
      cases hmid with
      | @answered p _ _ hmem hwrite _ =>
        have hset : (s.pipes.set k { back })[k]? = some { back } :=
          List.getElem?_set_self (List.getElem?_eq_some_iff.1 hpipe).1
        rw [List.append_cons] at hwrite
        by_cases hback : back = []
        · -- this was the last byte
          subst hback
          rw [List.append_nil] at hwrite
          rw [Wire.Frame.read_whole hwrite]
          refine finish (s := { s with
            pipes := s.pipes.set k {}, progress := .receiving (got ++ [b]) }) h.orderly hr h.fair
            (.answered hmem) fun {_} _ {k'} hk' => ?_
          obtain rfl : k = k' := Option.some.inj (hk.symm.trans hk')
          exact hset
        · obtain ⟨doing, hread⟩ := Wire.Frame.read_part hwrite hback
          rw [hread]
          exact h.moved hr hk hset (.answered hmem hwrite hback) (List.Subset.refl _)
    · exact h
  · exact h

theorem broken (h : Aligned s) (t : Nat) (b : Break) : Aligned (s.broken t b) := by
  unfold Talk.broken
  split
  · rename_i r hr
    exact finish h.orderly hr h.fair (.broken b) nofun
  · exact h

/-- A peer has got a frame, which only an exchange under way can have sent on the stream. -/
theorem peer (h : Aligned s) (k : Nat) (answer : List UInt8) : Aligned (s.peer k answer) := by
  unfold Talk.peer
  split
  · rename_i pipe hpipe
    split
    · rename_i payload out bytes hread hwrite
      have hset : (s.pipes.set k { out, back := pipe.back ++ bytes })[k]? =
          some { out, back := pipe.back ++ bytes } :=
        List.getElem?_set_self (List.getElem?_eq_some_iff.1 hpipe).1
      have hsub : s.answered ⊆ s.answered ++ [(payload, answer)] := List.subset_append_left _ _
      by_cases hk : s.line.sub.stream = some k
      · by_cases hquiet : Quiet s.line
        · -- nothing has been sent
          rw [h.clear hquiet hk] at hpipe
          cases hpipe
          cases hread
        · obtain ⟨t, hr⟩ := not_forall.1 hquiet
          obtain ⟨r, hr⟩ := Option.ne_none_iff_exists'.1 hr
          obtain ⟨k', pipe', hk', hpipe', hmid⟩ := h.midway hr
          obtain rfl : k = k' := Option.some.inj (hk.symm.trans hk')
          obtain rfl := Option.some.inj (hpipe.symm.trans hpipe')
          -- the frame has come in whole, and it is that of the request
          suffices hmid' : Midway (s.answered ++ [(payload, answer)]) r s.progress
              { out, back := pipe.back ++ bytes } from h.moved hr hk hset hmid' hsub
          generalize s.progress = progress at hmid ⊢
          cases hmid with
          | sending hpart hrest =>
            obtain ⟨doing, hnone⟩ := Wire.Frame.read_part hpart hrest
            rw [hnone] at hread
            cases hread
          | sent hwhole =>
            rw [Wire.Frame.read_whole hwhole] at hread
            cases hread
            exact .answered (List.mem_append_right _ (List.mem_singleton_self _)) hwrite
              (Wire.Frame.write_ne_nil hwrite)
          | answered => cases hread
      · refine ⟨h.orderly, fun hquiet {k'} hk' => ?_, fun {t r} hr => ?_,
          fun hmem => (h.fair hmem).mono hsub⟩
        · have hne : k ≠ k' := fun he => hk (he ▸ hk')
          exact (List.getElem?_set_ne hne).trans (h.clear hquiet hk')
        · obtain ⟨k', pipe', hk', hpipe', hmid⟩ := h.midway hr
          have hne : k ≠ k' := fun he => hk (he ▸ hk')
          exact ⟨k', pipe', hk', (List.getElem?_set_ne hne).trans hpipe', hmid.mono hsub⟩
    · exact h
  · exact h

end Aligned

/-! ## Runs -/

/-- Somebody is dropped in the middle of an exchange. -/
def cuts (s : Talk) : Act → Bool
  | .drop t => (exchanging? s.line t).isSome
  | _ => false

/-- Nobody is dropped in the middle of an exchange. -/
def uncut (s : Talk) : List Act → Bool
  | [] => true
  | a :: acts => !s.cuts a && (s.act a).uncut acts

theorem goOn_self (s : Talk) (t : Nat) : s.goOn t s.line = s := by
  unfold goOn
  cases exchanging? s.line t <;> rfl

namespace Aligned

/-- Somebody gets the stream, over which nobody exchanges then. -/
theorem stream (h : Aligned s) (t : Nat) : Aligned (s.goOn t (s.line.act (.stream t))) := by
  rcases Line.due_cases s.line (a := .stream t) nofun nofun with hs | ⟨u, old, turn, ht, hturn, hs⟩
  · rw [hs, goOn_self]
    exact h
  · have ho := h.orderly.act (.stream t)
    rw [hs] at ho ⊢
    obtain ⟨hfree, hstream, rfl⟩ : s.line.free = true ∧
        (∀ {k}, turn.1.stream = some k → s.line.sub.stream = some k) ∧ u = t := by
      cases hturn with
      | refused hfree | standing hfree => exact ⟨hfree, id, rfl⟩
      | dial hfree =>
        refine ⟨hfree, fun hk => ?_, rfl⟩
        rwa [Subchannel.beginConnect, Subchannel.enter_stream] at hk
      | leave hfree => exact ⟨hfree, nofun, rfl⟩
    have hquiet := quiet_of_free hfree
    refine goOn ho (hquiet u) (fun v hv => ?_) (fun hk => h.clear hquiet (hstream hk)) h.fair
    rw [exchanging?_turned _ hv]
    exact hquiet v

/-- A connection that nobody uses yet does not matter. -/
theorem opened (h : Aligned s) : Aligned { s with pipes := s.pipes ++ [({} : Pipe)] } := by
  have hold {k : Nat} {pipe : Pipe} (hpipe : s.pipes[k]? = some pipe) :
      (s.pipes ++ [({} : Pipe)])[k]? = some pipe :=
    (List.getElem?_append_left (List.getElem?_eq_some_iff.1 hpipe).1).trans hpipe
  refine ⟨h.orderly, fun hquiet {k} hk => hold (h.clear hquiet hk), fun {t r} hr => ?_, h.fair⟩
  obtain ⟨k, pipe, hk, hpipe, hmid⟩ := h.midway hr
  exact ⟨k, pipe, hk, hold hpipe, hmid⟩

/-- There is a new connection, on which there is nothing. -/
theorem connected (h : Aligned s) (t : Nat) : Aligned (s.act (.connected t)) := by
  show Aligned ({ s with pipes := s.pipes ++ [({} : Pipe)] }.goOn t _)
  rcases Line.due_cases s.line (a := .connected t (.ok s.pipes.length)) nofun nofun with
    hs | ⟨u, old, turn, ht, hturn, hs⟩
  · rw [hs, goOn_self { s with pipes := s.pipes ++ [({} : Pipe)] }]
    exact h.opened
  · have ho := h.orderly.act (.connected t (.ok s.pipes.length))
    rw [hs] at ho ⊢
    cases hturn with
    | connected =>
      refine goOn ho (exchanging?_of_ne ht nofun) (fun v hv => ?_) (fun {k} hk => ?_) h.fair
      · rw [exchanging?_turned _ hv]
        exact others_quiet h.orderly ht rfl hv
      · have hk' : (Subchannel.enter { s.line.sub with stream := some s.pipes.length } .ready).stream =
            some k := hk
        rw [Subchannel.enter_stream] at hk'
        cases hk'
        exact List.getElem?_concat_length ..

/-- Somebody comes to an end who is not exchanging. -/
theorem left {old k : Stage} {sub : Subchannel Nat} (h : Aligned s)
    (ho : (s.line.turned t (sub, k)).Orderly) (ht : s.line.users[t]? = some old)
    (hwas : exchanging? s.line t = none) (hnow : ∀ r, k ≠ .exchanging r)
    (hstream : sub.stream = s.line.sub.stream) :
    Aligned { s with line := s.line.turned t (sub, k) } := by
  refine h.aside ho hstream fun u => ?_
  by_cases hu : u = t
  · rw [hu, hwas]
    exact exchanging?_ended ht hnow
  · exact exchanging?_turned _ hu

theorem refused (h : Aligned s) (t : Nat) (f : Fault) : Aligned (s.act (.refused t f)) := by
  show Aligned { s with line := s.line.act (.connected t (.error f)) }
  rcases Line.due_cases s.line (a := .connected t (.error f)) nofun nofun with
    hs | ⟨u, old, turn, ht, hturn, hs⟩
  · rw [hs]
    exact h
  · have ho := h.orderly.act (.connected t (.error f))
    rw [hs] at ho ⊢
    cases hturn with
    | @failed _ call =>
      exact h.left ho ht (exchanging?_of_ne ht nofun) (by cases call <;> exact nofun)
        (Subchannel.endConnect_error _ f).1

/-- Somebody is dropped who is not exchanging. -/
theorem dropped (h : Aligned s) {t : Nat} (hcut : exchanging? s.line t = none) :
    Aligned (s.act (.drop t)) := by
  show Aligned { s with line := s.line.act (.drop t) }
  rcases Line.due_cases s.line (a := .drop t) nofun nofun with hs | ⟨u, old, turn, ht, hturn, hs⟩
  · rw [hs]
    exact h
  · have ho := h.orderly.act (.drop t)
    rw [hs] at ho ⊢
    cases hturn with
    | drop => exact h.left ho ht hcut nofun rfl

end Aligned

theorem Aligned.act (h : Aligned s) {a : Act} (ha : s.cuts a = false) : Aligned (s.act a) := by
  cases a with
  | come call => exact h.aside (h.orderly.act (.come call)) rfl fun t => exchanging?_concat nofun
  | shutDown => exact h.aside (h.orderly.act .shutDown) rfl fun t => exchanging?_concat nofun
  | stream t => exact h.stream t
  | connected t => exact h.connected t
  | refused t f => exact h.refused t f
  | send t => exact h.send t
  | receive t => exact h.receive t
  | broken t b => exact h.broken t b
  | peer k answer => exact h.peer k answer
  | drop t => exact h.dropped (Option.isNone_iff_eq_none.1 (Option.isSome_eq_false_iff.1 ha))

theorem Aligned.run (h : Aligned s) {acts : List Act} (ha : s.uncut acts = true) :
    Aligned (s.run acts) := by
  induction acts generalizing s with
  | nil => exact h
  | cons a acts ih =>
    obtain ⟨hcut, hrest⟩ := Bool.and_eq_true_iff.1 ha
    exact ih (h.act (by simpa using hcut)) hrest

/-! ## The law -/

/-- An answer holds a response with the id of the request. -/
def Answers (frame answer : List UInt8) : Prop :=
  ∃ response, Response.decode answer = .ok response ∧
    ∀ r : Request, r.encode = frame → response.id = r.id

theorem accept_of_answers {p : List UInt8} (h : Answers r.encode p) :
    ∃ response, Response.decode p = .ok response ∧ r.accept p = .ok response := by
  obtain ⟨response, hread, hid⟩ := h
  refine ⟨response, hread, ?_⟩
  rw [Request.accept, hread]
  exact if_neg fun hne => hne.1 (hid r rfl)

/-- If nobody is dropped in the middle of an exchange, and peers answer requests with responses that
carry their ids, then whatever exchange gets a response has got the answer to its own request; and an
exchange fails only because it has been broken off, or for the size of its own request. -/
theorem responses_belong (addr : String) (acts : List Act) (hcut : (ofAddr addr).uncut acts = true)
    (hpeer : ∀ frame answer, (frame, answer) ∈ ((ofAddr addr).run acts).answered →
      Answers frame answer)
    {x : Except Fault Response} (hx : (r, x) ∈ ((ofAddr addr).run acts).results) :
    (∃ p response, (r.encode, p) ∈ ((ofAddr addr).run acts).answered ∧
      Response.decode p = .ok response ∧ x = .ok response) ∨
    (∃ b : Break, x = .error b.fault) ∨
    ∃ f, Frame.write r.encode = .error f ∧ x = .error f := by
  have hfair := ((Aligned.ofAddr addr).run hcut).fair hx
  cases hfair with
  | @answered p hmem =>
    obtain ⟨response, hread, haccept⟩ := accept_of_answers (hpeer _ _ hmem)
    exact .inl ⟨p, response, hmem, hread, haccept⟩
  | broken b => exact .inr (.inl ⟨b, rfl⟩)
  | tooLarge hwrite => exact .inr (.inr ⟨_, hwrite, rfl⟩)

/-- A request is written, and its user is dropped before the answer comes. Somebody else calls then. -/
def cutShort : List Act :=
  [.come (some { id := 1, method := "m", args := .null }), .stream 0, .connected 0] ++
    List.replicate 37 (.send 0) ++
    [.drop 0, .peer 0 (Response.ofResult 1 (.text "one")).encode,
      .come (some { id := 2, method := "m", args := .null }), .stream 1] ++
    List.replicate 37 (.send 1) ++ List.replicate 55 (.receive 1)

/-- The peer has answered the first request with a response that carries its id, and the second call
fails with that response. -/
theorem stale_response_read :
    ((ofAddr "a").run cutShort).answered =
      [(Request.encode { id := 1, method := "m", args := .null },
        (Response.ofResult 1 (.text "one")).encode)] ∧
    ((ofAddr "a").run cutShort).results.map (fun e => (e.1.id, e.2.toOption.isSome)) = [(2, false)] ∧
    ((ofAddr "a").run cutShort).line.users.map (fun k => match k with
      | .ended (.called (.error f)) => some f
      | _ => none) = [none, some (Wire.foreignId 1 2)] := by
  decide +kernel

end Muster.Channel.Talk
