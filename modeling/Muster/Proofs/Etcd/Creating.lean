/-
Creating a key over endpoints in front of one keyspace. What is the caller's own under the key is the
value of the call, and a request that was applied has put it there (`Fair`). Endpoints are asked until
one answers, and those before it have told that they may have applied the request, or have not
(`Asked`). So a create calls its own write a conflict exactly if none of them has told.
-/
import Muster.Proofs.Etcd.Answer
import Muster.Proofs.History

namespace Muster.Etcd

variable {key value : String} {k : Keyspace key value} {a : Ask} {r : Http.Request}
  {within : Option Nat} {s s' : Scene} {held : Standing} {p : Passage} {m : Meeting}
  {fates : List Fate}

/-! ## One request -/

/-- A request comes upon the key, or it does not get anywhere. -/
theorem askEndpoint_cases (k : Keyspace key value) (a : Ask) (within : Option Nat) (e : String)
    (s : Scene) :
    (∃ cause, askEndpoint k.pass a within e s = (.error (.unreachable cause), s)) ∨
    ∃ r p, a.request e = some r ∧ s.coming.head? = some p ∧
      askEndpoint k.pass a within e s =
        (p.fate.outcome (k.answer r (s.meeting p).held).1, k.after r s p) := by
  unfold askEndpoint
  split
  · exact .inl ⟨_, rfl⟩
  · rename_i r hr
    split
    · unfold Keyspace.pass
      rcases hcoming : s.coming with _ | ⟨p, coming⟩
      · exact .inl ⟨_, rfl⟩
      · exact .inr ⟨r, p, hr, rfl, rfl⟩
    · exact .inl ⟨_, rfl⟩

/-- Only a create changes what there is under the key, and only where there is nothing. -/
theorem Keyspace.leaves_cases {e : String}
    (hr : (Ask.create key value).request e = some r ∨ (Ask.get key).request e = some r) (m : Meeting) :
    k.leaves r m = m.held ∨
      m.fate.applies = true ∧ m.held = .free ∧ k.leaves r m = .holds value := by
  unfold Keyspace.leaves
  split
  · rename_i happlied
    rcases hr with hr | hr
    · cases hheld : m.held with
      | free => exact .inr ⟨happlied, rfl, (k.writes hr).1⟩
      | holds v => exact .inl (k.refuses _ hr (.inr ⟨v, rfl⟩)).1
      | directory => exact .inl (k.refuses _ hr (.inl rfl)).1
      | barred => exact .inl (k.bars hr).1
    · exact .inl (k.keeps _ hr).1
  · exact .inl rfl

/-! ## What the caller has written -/

/-- What is under the key is the caller's only if it is the value of the call, and a request has been
applied before where there was nothing. -/
structure Fair (value : String) (fates : List Fate) (s : Scene) : Prop where
  held : s.own = true → s.held = .holds value
  put : s.own = true → ∃ m ∈ s.met, m.fate.applies = true ∧ m.held = .free
  heldMet : ∀ m ∈ s.met, m.own = true → m.held = .holds value
  putMet : ∀ {before after m}, s.met = before ++ m :: after → m.own = true →
    ∃ m' ∈ before, m'.fate.applies = true ∧ m'.held = .free
  fates : s.met.map (·.fate) ++ s.coming.map (·.fate) = fates

namespace Fair

theorem start (value : String) (held : Standing) (coming : List Passage) :
    Fair value (coming.map (·.fate)) { held, coming } where
  held := nofun
  put := nofun
  heldMet := nofun
  putMet h := absurd h.symm (by simp)
  fates := rfl

theorem own_meeting (h : s.own = true → s.held = .holds value) (hm : (s.meeting p).own = true) :
    s.own = true ∧ (s.meeting p).held = .holds value := by
  obtain ⟨hown, hnone⟩ := Bool.and_eq_true_iff.1 hm
  refine ⟨hown, ?_⟩
  rw [Option.isNone_iff_eq_none] at hnone
  show p.meanwhile.getD s.held = _
  rw [hnone]
  exact h hown

theorem after {e : String} (h : Fair value fates s) (hp : s.coming.head? = some p)
    (hr : (Ask.create key value).request e = some r ∨ (Ask.get key).request e = some r) :
    Fair value fates (k.after r s p) := by
  -- what is the caller's afterwards was so when the request came, or has been written by it
  have hown (ho : (k.after r s p).own = true) :
      ((s.meeting p).own = true ∧ k.leaves r (s.meeting p) = (s.meeting p).held) ∨
        ((s.meeting p).fate.applies = true ∧ (s.meeting p).held = .free) ∧
          k.leaves r (s.meeting p) = .holds value := by
    rcases k.leaves_cases hr (s.meeting p) with heq | ⟨happlies, hfree, hwritten⟩
    · rcases Bool.or_eq_true_iff.1 ho with ho | ho
      · exact .inl ⟨ho, heq⟩
      · rw [heq, bne_self_eq_false] at ho
        cases ho
    · exact .inr ⟨⟨happlies, hfree⟩, hwritten⟩
  refine ⟨fun ho => ?_, fun ho => ?_, fun m hm ho => ?_, fun {before after m} hmet ho => ?_, ?_⟩
  · rcases hown ho with ⟨ho, heq⟩ | ⟨-, hwritten⟩
    · exact heq.trans (own_meeting h.held ho).2
    · exact hwritten
  · show ∃ m ∈ s.met ++ [s.meeting p], _
    rcases hown ho with ⟨ho, -⟩ | ⟨hput, -⟩
    · obtain ⟨m, hm, hput⟩ := h.put (own_meeting h.held ho).1
      exact ⟨m, List.mem_append_left _ hm, hput⟩
    · exact ⟨s.meeting p, List.mem_concat_self, hput⟩
  · rcases List.mem_append.1 hm with hm | hm
    · exact h.heldMet m hm ho
    · cases List.mem_singleton.1 hm
      exact (own_meeting h.held ho).2
  · rcases snoc_split hmet with ⟨rfl, rfl, -⟩ | ⟨after', -, hmet⟩
    · exact h.put (own_meeting h.held ho).1
    · exact h.putMet hmet ho
  · obtain ⟨coming, hcoming⟩ := List.head?_eq_some_iff.1 hp
    rw [← h.fates, hcoming]
    show (s.met ++ [s.meeting p]).map (·.fate) ++ (s.coming.tail).map (·.fate) = _
    rw [hcoming, List.map_append, List.append_assoc]
    rfl

end Fair

/-! ## Endpoints in order -/

/-- What has come of asking endpoints in order: the first answer, with what the endpoints before it
have told, or no answer. -/
inductive Asked (k : Keyspace key value) (a : Ask) (maybeApplied : Bool) (s : Scene) :
    Except Fault Sent × Scene → Prop
  | answered {sent : Sent} {s' : Scene} {before : List Meeting} {last : Meeting} {e : String}
      {r : Http.Request} : a.request e = some r → s'.met = s.met ++ before ++ [last] →
      (∀ m ∈ before, m.fate ≠ .answered) → last.fate = .answered →
      s'.own = (last.own || (k.answer r last.held).2 != last.held) →
      sent.response = (k.answer r last.held).1 →
      sent.maybeApplied = (maybeApplied || before.any (! ·.fate.isSilent)) →
      Asked k a maybeApplied s (.ok sent, s')
  | failed {s' : Scene} {met : List Meeting} {cause : String} : s'.met = s.met ++ met →
      (∀ m ∈ met, m.fate ≠ .answered) → Asked k a maybeApplied s (.error (.transient cause), s')

/-- One more endpoint has been asked before that gave no answer. -/
theorem Asked.later {maybeApplied : Bool} {x : Except Fault Sent × Scene}
    (hmet : s'.met = s.met ++ [m]) (hm : m.fate ≠ .answered)
    (h : Asked k a (maybeApplied || ! m.fate.isSilent) s' x) : Asked k a maybeApplied s x := by
  cases h with
  | @answered _ _ before last _ _ hr hmet' hbefore hlast hown hresponse htold =>
    have hall : ∀ m' ∈ m :: before, m'.fate ≠ .answered := List.forall_mem_cons.2 ⟨hm, hbefore⟩
    refine .answered hr ?_ hall hlast hown hresponse ?_
    · rw [hmet', hmet]
      simp
    · rw [htold, List.any_cons, Bool.or_assoc]
  | @failed _ met _ hmet' hms =>
    have hall : ∀ m' ∈ m :: met, m'.fate ≠ .answered := List.forall_mem_cons.2 ⟨hm, hms⟩
    refine .failed ?_ hall
    rw [hmet', hmet]
    simp

/-- The endpoint that answers. -/
theorem Asked.first {maybeApplied : Bool} {e : String} (hr : a.request e = some r)
    (hfate : p.fate = .answered) : Asked k a maybeApplied s
      (.ok ⟨(k.answer r (s.meeting p).held).1, maybeApplied⟩, k.after r s p) := by
  have happlies : (s.meeting p).fate.applies = true := by
    rw [show (s.meeting p).fate = .answered from hfate]
    rfl
  have hnone : ∀ m ∈ ([] : List Meeting), m.fate ≠ .answered := nofun
  have hlast : (s.meeting p).fate = .answered := hfate
  refine .answered hr ?_ hnone hlast ?_ rfl (by simp)
  · rw [List.append_nil]
    rfl
  · show ((s.meeting p).own || k.leaves r (s.meeting p) != (s.meeting p).held) = _
    rw [Keyspace.leaves, if_pos happlies]

theorem isServerFault_failed (fault : Fin 100) (body : List UInt8) :
    ({ status := 500 + fault, body } : Http.Response).isServerFault = true := by
  have := fault.isLt
  simp only [Http.Response.isServerFault, Bool.and_eq_true, decide_eq_true_eq]
  omega

theorem asked (hsound : ∀ {e r} (held : Standing), a.request e = some r →
    (k.answer r held).1.isServerFault = false) :
    ∀ (endpoints : List String) (last : String) (maybeApplied : Bool) (s : Scene),
      Asked k a maybeApplied s (askInOrder k.pass a within endpoints last maybeApplied s)
  | [], last, maybeApplied, s => .failed (List.append_nil _).symm nofun
  | e :: endpoints, last, maybeApplied, s => by
    unfold askInOrder
    rcases askEndpoint_cases k a within e s with ⟨cause, hask⟩ | ⟨r, p, hr, hp, hask⟩
    · rw [hask]
      show Asked k a maybeApplied s
        (askInOrder k.pass a within endpoints _ (maybeApplied || false) s)
      rw [Bool.or_false]
      exact asked hsound endpoints _ maybeApplied s
    · rw [hask]
      -- an endpoint that does not answer leaves it to the rest
      have hgo {maybe : Bool} {cause : String} (hfate : p.fate ≠ .answered)
          (hmaybe : maybe = (maybeApplied || ! p.fate.isSilent)) :
          Asked k a maybeApplied s
            (askInOrder k.pass a within endpoints cause maybe (k.after r s p)) := by
        have hmet : (k.after r s p).met = s.met ++ [s.meeting p] := rfl
        subst hmaybe
        exact .later hmet hfate (asked hsound endpoints cause _ _)
      cases hfate : p.fate with
      | refused cause => exact hgo (by simp [hfate]) (by simp [hfate, Fate.isSilent])
      | answered =>
        show Asked k a maybeApplied s (if (k.answer r (s.meeting p).held).1.isServerFault then _ else _)
        rw [hsound _ hr, if_neg Bool.false_ne_true]
        exact .first hr hfate
      | failed applied fault body =>
        show Asked k a maybeApplied s (if Http.Response.isServerFault _ then _ else _)
        rw [if_pos (isServerFault_failed fault body)]
        exact hgo (by simp [hfate]) (by simp [hfate, Fate.isSilent])
      | late applied => exact hgo (by simp [hfate]) (by simp [hfate, Fate.isSilent])
      | dropped applied cause => exact hgo (by simp [hfate]) (by simp [hfate, Fate.isSilent])

theorem askInOrder_keeps {P : Scene → Prop}
    (hafter : ∀ {e r s p}, a.request e = some r → s.coming.head? = some p → P s → P (k.after r s p)) :
    ∀ (endpoints : List String) (last : String) (maybeApplied : Bool) {s : Scene}, P s →
      P (askInOrder k.pass a within endpoints last maybeApplied s).2
  | [], _, _, _, h => h
  | e :: endpoints, last, maybeApplied, s, h => by
    have hasked : P (askEndpoint k.pass a within e s).2 := by
      rcases askEndpoint_cases k a within e s with ⟨cause, hask⟩ | ⟨r, p, hr, hp, hask⟩
      · rw [hask]
        exact h
      · rw [hask]
        exact hafter hr hp h
    unfold askInOrder
    rcases hx : askEndpoint k.pass a within e s with ⟨failure | response, s'⟩
    all_goals
      rw [hx] at hasked
      dsimp only
    · exact askInOrder_keeps hafter endpoints _ _ hasked
    · split
      · exact askInOrder_keeps hafter endpoints _ _ hasked
      · exact hasked

/-! ## Operations -/

variable {c : Config}

theorem request_snd {ω : Type} (http : Http.Transport ω) (c : Config) (a : Ask) (w : ω) :
    (request http c a w).2 = (send http c a (some c.requestTimeout) w).2 := by
  unfold request
  split
  · rename_i heq
    rw [heq]
  · rename_i heq
    rw [heq]
    split <;> rfl

theorem get_snd {ω : Type} (http : Http.Transport ω) (c : Config) (key : String) (w : ω) :
    (get http c key w).2 = (send http c (.get key) (some c.requestTimeout) w).2 := by
  rw [← request_snd]
  unfold get
  split
  · rename_i heq
    rw [heq]
  · rename_i heq
    rw [heq]
    split <;> rfl

theorem readBack_snd {ω : Type} (http : Http.Transport ω) (c : Config) (key value : String) (w : ω) :
    (readBack http c key value w).2 = (get http c key w).2 := by
  unfold readBack
  split
  · rename_i heq
    rw [heq]
  · rename_i heq
    rw [heq]

namespace Fair

theorem send_create (h : Fair value fates s) :
    Fair value fates (send k.pass c (.create key value) within s).2 :=
  askInOrder_keeps (fun hr hp h => h.after hp (.inl hr)) _ _ _ h

theorem get (h : Fair value fates s) : Fair value fates (get k.pass c key s).2 := by
  rw [get_snd]
  exact askInOrder_keeps (fun hr hp h => h.after hp (.inr hr)) _ _ _ h

theorem create (h : Fair value fates s) : Fair value fates (create k.pass c key value s).2 := by
  have hsend : Fair value fates (send k.pass c (.create key value) (some c.requestTimeout) s).2 :=
    h.send_create
  unfold Etcd.create
  rcases hx : send k.pass c (.create key value) (some c.requestTimeout) s with ⟨f | sent, s'⟩
  all_goals
    rw [hx] at hsend
    dsimp only
  · exact hsend
  · split
    · exact hsend
    · split
      · rw [readBack_snd]
        exact hsend.get
      · exact hsend
    · exact hsend

end Fair

theorem asked_get (k : Keyspace key value) (c : Config) (s : Scene) :
    Asked k (.get key) false s (send k.pass c (.get key) (some c.requestTimeout) s) :=
  asked (fun held hr => k.isSound held (.inr hr)) _ _ _ _

theorem asked_create (k : Keyspace key value) (c : Config) (s : Scene) :
    Asked k (.create key value) false s
      (send k.pass c (.create key value) (some c.requestTimeout) s) :=
  asked (fun held hr => k.isSound held (.inl hr)) _ _ _ _

/-- Reading the key meets no conflict, and what is the caller's own has the value of the call. -/
theorem get_spec (k : Keyspace key value) (c : Config) (h : Fair value fates s) :
    (∀ taken, (get k.pass c key s).1 ≠ .error (.conflict taken)) ∧
      ∀ entry, (get k.pass c key s).1 = .ok entry → (get k.pass c key s).2.own = true →
        entry.value = value := by
  have hfair : Fair value fates (get k.pass c key s).2 := h.get
  have hasked := asked_get k c s
  rw [get_snd] at hfair ⊢
  unfold get request
  generalize send k.pass c (.get key) (some c.requestTimeout) s = x at *
  cases hasked with
  | failed => exact ⟨nofun, nofun⟩
  | @answered sent s' before last e r hr hmet _ _ hown hresponse _ =>
    obtain ⟨hkept, hno⟩ := k.keeps last.held hr
    rw [hkept, bne_self_eq_false, Bool.or_false] at hown
    -- whoever reads what is the caller's own reads the value of the call
    have hshown (ho : s'.own = true) : ∃ answer entry, readResponse sent.response key = .ok (some answer) ∧
        answer.node.bind (·.asEntry) = some entry ∧ entry.value = value := by
      have hheld := hfair.heldMet last (hmet ▸ List.mem_concat_self) (hown ▸ ho)
      rw [hresponse, hheld]
      exact k.shows value hr
    have hread : ∀ taken, readResponse sent.response key ≠ .error (.conflict taken) := hresponse ▸ hno
    dsimp only [Ask.get]
    cases hcase : readResponse sent.response key with
    | error f =>
      refine ⟨fun taken htaken => hread taken ?_, nofun⟩
      cases htaken
      exact hcase
    | ok answer =>
      cases answer with
      | none => exact ⟨nofun, nofun⟩
      | some answer =>
        dsimp only
        cases hentry : answer.node.bind (·.asEntry) with
        | none => exact ⟨nofun, nofun⟩
        | some entry =>
          refine ⟨nofun, fun entry' hentry' ho => ?_⟩
          cases hentry'
          obtain ⟨answer', entry', hread', hentry', hvalue⟩ := hshown ho
          rw [hcase] at hread'
          cases hread'
          rw [hentry] at hentry'
          cases hentry'
          exact hvalue

/-! ## Conflicts -/

/-- The only answer came from a key that held what the caller had put there, and no endpoint had told
before that it may have. -/
def Scene.IsUnwitting (s : Scene) : Prop :=
  ∃ before last, s.met = before ++ [last] ∧ last.fate = .answered ∧ last.own = true ∧
    ∀ m ∈ before, m.fate.isSilent = true

namespace Scene

theorem isUnwitting_iff {before : List Meeting} {last : Meeting} (hmet : s.met = before ++ [last])
    (hlast : last.fate = .answered) :
    s.IsUnwitting ↔ last.own = true ∧ ∀ m ∈ before, m.fate.isSilent = true := by
  constructor
  · rintro ⟨before', last', hmet', -, hown, hsilent⟩
    obtain ⟨rfl, hlast'⟩ := List.append_inj' (hmet.symm.trans hmet') rfl
    cases hlast'
    exact ⟨hown, hsilent⟩
  · rintro ⟨hown, hsilent⟩
    exact ⟨before, last, hmet, hlast, hown, hsilent⟩

theorem IsUnwitting.answered (h : s.IsUnwitting) : ∃ m ∈ s.met, m.fate = .answered := by
  obtain ⟨before, last, hmet, hlast, -, -⟩ := h
  exact ⟨last, hmet ▸ List.mem_concat_self, hlast⟩

/-- No endpoint has told that it may have applied the create. -/
theorem IsUnwitting.silent (h : s.IsUnwitting) (hm : m ∈ s.met) (hfate : m.fate ≠ .answered) :
    m.fate.isSilent = true := by
  obtain ⟨before, last, hmet, hlast, -, hsilent⟩ := h
  rw [hmet] at hm
  rcases List.mem_append.1 hm with hm | hm
  · exact hsilent m hm
  · cases List.mem_singleton.1 hm
    exact absurd hlast hfate

end Scene

theorem Asked.met {maybeApplied : Bool} {x : Except Fault Sent × Scene}
    (h : Asked k a maybeApplied s x) : s.met ⊆ x.2.met := by
  intro m hm
  cases h with
  | answered _ hmet =>
    rw [hmet, List.append_assoc]
    exact List.mem_append_left _ hm
  | failed hmet =>
    rw [hmet]
    exact List.mem_append_left _ hm

/-- What a create is told of a key. -/
theorem Keyspace.create_cases (k : Keyspace key value) {e : String}
    (hr : (Ask.create key value).request e = some r) (held : Standing) :
    ((held = .free ∨ held = .barred) ∧
      ∀ taken, readResponse (k.answer r held).1 key ≠ .error (.conflict taken)) ∨
    (k.answer r held).2 = held ∧ readResponse (k.answer r held).1 key = .error (.conflict key) := by
  cases held with
  | free =>
    obtain ⟨-, a, hread⟩ := k.writes hr
    exact .inl ⟨.inl rfl, by simp [hread]⟩
  | holds v => exact .inr (k.refuses _ hr (.inr ⟨v, rfl⟩))
  | directory => exact .inr (k.refuses _ hr (.inl rfl))
  | barred =>
    obtain ⟨-, cause, hread⟩ := k.bars hr
    exact .inl ⟨.inr rfl, by simp [hread]⟩

theorem get_met (k : Keyspace key value) (c : Config) (s : Scene) :
    s.met ⊆ (get k.pass c key s).2.met := by
  rw [get_snd]
  exact (asked_get k c s).met

/-- Once an endpoint has told that it may have applied the create, what is the caller's own is no
conflict. -/
theorem readBack_spec (k : Keyspace key value) (c : Config) (h : Fair value fates s) :
    ¬ ((readBack k.pass c key value s).1 = .error (.conflict key) ∧
      (readBack k.pass c key value s).2.own = true) := by
  obtain ⟨hno, hvalue⟩ := get_spec k c h
  unfold readBack
  rcases hget : get k.pass c key s with ⟨f | existing, s'⟩
  all_goals
    rw [hget] at hno hvalue
    rintro ⟨hconflict, ho⟩
  · cases hconflict
    exact hno key rfl
  · have hsame : existing.value = value := hvalue existing rfl ho
    dsimp only at hconflict
    rw [if_pos hsame] at hconflict
    cases hconflict

/-- A create calls its own write a conflict exactly if the first endpoint that answers finds it under
the key, and all that were asked before have refused the connection or lost it. -/
theorem conflict_over_own_iff (k : Keyspace key value) (c : Config) (held : Standing)
    (coming : List Passage) :
    let (result, s) := create k.pass c key value { held, coming }
    result = .error (.conflict key) ∧ s.own = true ↔ s.IsUnwitting := by
  have hasked := asked_create k c { held, coming }
  have hsend : Fair value (coming.map (·.fate))
      (send k.pass c (.create key value) (some c.requestTimeout) { held, coming }).2 :=
    (Fair.start value held coming).send_create
  unfold create
  generalize send k.pass c (.create key value) (some c.requestTimeout) { held, coming } = x at *
  cases hasked with
  | @failed s' met cause hmet hms =>
    refine ⟨nofun, fun h => ?_⟩
    obtain ⟨m, hm, hanswered⟩ := h.answered
    have hmet : s'.met = met := hmet
    exact absurd hanswered (hms m (hmet ▸ hm))
  | @answered sent s' before last e r hr hmet hbefore hlast hown hresponse htold =>
    have hmet : s'.met = before ++ [last] := hmet
    have hheld : last.own = true → last.held = .holds value :=
      hsend.heldMet last (hmet ▸ List.mem_concat_self)
    have hiff := Scene.isUnwitting_iff hmet hlast
    rw [Bool.false_or] at htold
    dsimp only
    rcases k.create_cases hr last.held with ⟨hstanding, hread⟩ | ⟨hkept, hread⟩
    · -- the key was not taken, so what was there was not the caller's
      have hnot : ¬ s'.IsUnwitting := by
        intro h
        rw [hheld (hiff.1 h).1] at hstanding
        rcases hstanding with h | h <;> cases h
      rw [← hresponse] at hread
      split
      · exact iff_of_false nofun hnot
      · rename_i taken heq
        exact absurd heq (hread taken)
      · rename_i f hf _
        exact iff_of_false (fun h => hf key (Except.error.inj h.1)) hnot
    · rw [hresponse, hread]
      rw [hkept, bne_self_eq_false, Bool.or_false] at hown
      dsimp only
      split
      · -- an endpoint has told, and the key is read back
        rename_i hmaybe
        obtain ⟨m, hm, htells⟩ := List.any_eq_true.1 (htold ▸ hmaybe)
        refine iff_of_false (readBack_spec k c hsend) fun h => ?_
        have hmem := get_met k c s' (hmet ▸ List.mem_append_left _ hm)
        rw [← readBack_snd] at hmem
        rw [h.silent hmem (hbefore m hm)] at htells
        cases htells
      · rename_i hmaybe
        have hsilent : ∀ m ∈ before, m.fate.isSilent = true := by
          simpa [htold] using hmaybe
        rw [hiff, hown]
        exact ⟨fun h => ⟨h.2, hsilent⟩, fun h => ⟨rfl, h.1⟩⟩

/-- As long as no connection is lost after the request was applied, a create calls only what others
have written a conflict. -/
theorem conflict_over_others (k : Keyspace key value) (c : Config) (held : Standing)
    (coming : List Passage) (hlost : ∀ p ∈ coming, p.fate.isLost = false) :
    let (result, s) := create k.pass c key value { held, coming }
    result = .error (.conflict key) → s.own = false := by
  have hfair : Fair value (coming.map (·.fate)) (create k.pass c key value { held, coming }).2 :=
    (Fair.start value held coming).create
  have hiff := conflict_over_own_iff k c held coming
  dsimp only at hiff ⊢
  intro hconflict
  rw [← Bool.not_eq_true]
  intro hown
  obtain ⟨before, last, hmet, -, hlast, hsilent⟩ := hiff.1 ⟨hconflict, hown⟩
  -- somebody silent has applied it
  obtain ⟨m, hm, happlies, -⟩ := hfair.putMet hmet hlast
  have hfate : m.fate ∈ coming.map (·.fate) := by
    rw [← hfair.fates, hmet]
    exact List.mem_append_left _ (List.mem_map_of_mem (List.mem_append_left _ hm))
  obtain ⟨p, hp, hsame⟩ := List.mem_map.1 hfate
  have hkept : p.fate.isLost = true := by
    rw [Fate.isLost, hsame, happlies, hsilent m hm]
    rfl
  rw [hlost p hp] at hkept
  cases hkept

/-! ## A keyspace as built -/

theorem method_of_request {e : String} (h : a.request e = some r) : r.method = a.method := by
  obtain ⟨url, -, rfl⟩ := Option.map_eq_some_iff.1 h
  rfl

theorem plainAnswer_create {e : String} (h : (Ask.create key value).request e = some r)
    (held : Standing) : plainAnswer key value r held = createAnswer key value held :=
  if_pos (method_of_request h)

theorem plainAnswer_get {e : String} (h : (Ask.get key).request e = some r) (held : Standing) :
    plainAnswer key value r held = (getAnswer key held, held) := by
  have hmethod : r.method = .get := method_of_request h
  exact if_neg (by simp [hmethod])

theorem readResponse_leaf {status : Nat} (hstatus : 200 ≤ status ∧ status < 300)
    (action key value : String) : readResponse (shown status action (leaf key value)) key =
      .ok (some { action, node := some { key := some key, value := some value } }) :=
  readResponse_shown hstatus action key
    ((takes_leaf _ _ key value).optional (by decide) (by decide))

theorem readResponse_directory {status : Nat} (hstatus : 200 ≤ status ∧ status < 300)
    (action key : String) : readResponse (shown status action (directory key)) key =
      .ok (some { action, node := some { key := some key, dir := true } }) :=
  readResponse_shown hstatus action key
    ((takes_directory _ _ key).optional (by decide) (by decide))

/-- A keyspace that answers as keepers of keys do. -/
def Keyspace.plain (key value : String) : Keyspace key value where
  answer := plainAnswer key value
  isSound s hr := by
    rcases hr with hr | hr
    · rw [plainAnswer_create hr]
      cases s <;> rfl
    · rw [plainAnswer_get hr]
      cases s <;> rfl
  writes hr := by
    rw [plainAnswer_create hr]
    exact ⟨rfl, _, readResponse_leaf (by decide) _ key value⟩
  refuses s hr hs := by
    rw [plainAnswer_create hr]
    rcases hs with rfl | ⟨v, rfl⟩
    · exact ⟨rfl, readResponse_refusal (by decide) (by decide) _ key key⟩
    · exact ⟨rfl, readResponse_refusal (by decide) (by decide) _ key key⟩
  bars hr := by
    rw [plainAnswer_create hr]
    exact ⟨rfl, _, readResponse_refusal (by decide) (by decide) _ key key⟩
  keeps s hr := by
    rw [plainAnswer_get hr]
    refine ⟨rfl, fun taken => ?_⟩
    cases s with
    | free =>
      rw [getAnswer, readResponse_refusal (by decide) (by decide)]
      exact nofun
    | holds v =>
      rw [getAnswer, readResponse_leaf (by decide)]
      exact nofun
    | directory =>
      rw [getAnswer, readResponse_directory (by decide)]
      exact nofun
    | barred =>
      rw [getAnswer, readResponse_refusal (by decide) (by decide)]
      exact nofun
  shows v hr := by
    rw [plainAnswer_get hr]
    exact ⟨_, _, readResponse_leaf (by decide) _ key v, rfl, rfl⟩

/-- The first endpoint applies the create and loses the connection; the second one refuses it, and the
caller takes the key that it has created for somebody else's. -/
theorem own_write_conflicts :
    let done := create (Keyspace.plain "/svc/1" "v").pass
      { endpoints := ["http://10.0.0.1:2379", "http://10.0.0.2:2379"] } "/svc/1" "v"
      { held := .free, coming := [{ fate := .dropped true "closed" }, { fate := .answered }] }
    done.1 = .error (.conflict "/svc/1") ∧ done.2.held = .holds "v" ∧ done.2.own = true := by
  decide +kernel

end Muster.Etcd
