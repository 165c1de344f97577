/-
Endpoints that stand in for each other. They are asked in the order of the settings, each once, until one
answers with anything but a fault of its own; nobody is asked behind that one. What is reported with its
response is whether one of those before it may have done what was asked; and where nobody answers, the
fault names the last endpoint. Main statement: `failover`.
-/
import Muster.Etcd.Store
import Muster.Proofs.Tries

namespace Muster

/-- A way to the endpoints that writes down which requests are made. -/
def Http.recorded {ω : Type} (http : Http.Transport ω) : Http.Transport (ω × List Http.Request) :=
  fun r within w => ((http r within w.1).1, (http r within w.1).2, w.2 ++ [r])

namespace Etcd

variable {ω : Type}

/-- What comes of asking one endpoint. -/
abbrev Reply := Except Http.Failure Http.Response

namespace Reply

/-- A response that does not report a fault of the endpoint. -/
def Answers (r : Reply) : Prop :=
  ∃ response, r = .ok response ∧ ¬ (500 ≤ response.status ∧ response.status ≤ 599)

/-- What was asked may have been done all the same: the time was up, or the endpoint reports a fault of
its own. -/
def IsUnsure (r : Reply) : Prop :=
  r = .error .timedOut ∨ ∃ response, r = .ok response ∧ 500 ≤ response.status ∧ response.status ≤ 599

/-- What is said of an endpoint that does not answer, behind its name. -/
def complaint : Reply → String
  | .ok response => " returned " ++ Http.statusText response.status
  | .error .timedOut => " timed out"
  | .error (.unreachable cause) => ": " ++ cause

end Reply

/-- The request that goes out to an endpoint, if any can. -/
def Ask.sent (a : Ask) (endpoint : String) : Option Http.Request :=
  (a.request endpoint).filter (·.url.isSendable)

variable {http : Http.Transport ω} {c : Config} {a : Ask} {within : Option Nat} {w : ω}

theorem isServerFault_iff {response : Http.Response} :
    response.isServerFault = true ↔ 500 ≤ response.status ∧ response.status ≤ 599 := by
  simp only [Http.Response.isServerFault, Bool.and_eq_true, decide_eq_true_eq]
  omega

/-! ## Requests that are made -/

/-- An endpoint gets the request of the ask, if that can be sent, and nothing else. -/
theorem askEndpoint_recorded (e : String) (log : List Http.Request) :
    askEndpoint (Http.recorded http) a within e (w, log) =
      ((askEndpoint http a within e w).1, (askEndpoint http a within e w).2,
        log ++ (a.sent e).toList) := by
  unfold askEndpoint Ask.sent
  cases a.request e with
  | none => simp
  | some r =>
    by_cases hr : r.url.isSendable = true
    · simp [hr, Http.recorded, Option.filter]
    · simp [hr, Option.filter]

theorem tries_recorded (es : List String) (log : List Http.Request) :
    tries (askEndpoint (Http.recorded http) a within) es (w, log) =
      ((tries (askEndpoint http a within) es w).1, (tries (askEndpoint http a within) es w).2,
        log ++ es.filterMap a.sent) := by
  rw [List.filterMap_eq_flatMap_toList]
  exact tries_logged (fun e _ log => askEndpoint_recorded e log) es w log

/-! ## One endpoint after another -/

section Asking

variable {e : String} {front back : List String} {reply : Reply} {v : ω}

/-- Who does not answer leaves it to the others. -/
theorem askInOrder_passed (hask : askEndpoint http a within e w = (reply, v)) (h : ¬ reply.Answers)
    (es : List String) (last : String) (maybe : Bool) :
    ∃ maybe', (maybe' = true ↔ maybe = true ∨ reply.IsUnsure) ∧
      askInOrder http a within (e :: es) last maybe w =
        askInOrder http a within es (e ++ reply.complaint) maybe' v := by
  classical
  -- what the flag says is fixed first, so that both kinds of reply only have to show it
  obtain ⟨maybe', hmaybe⟩ : ∃ b : Bool, b = true ↔ maybe = true ∨ reply.IsUnsure :=
    ⟨_, decide_eq_true_iff⟩
  refine ⟨maybe', hmaybe, ?_⟩
  rw [askInOrder, hask]
  cases reply with
  | error failure =>
    have hflag : (maybe || failure == .timedOut) = maybe' := by
      rw [Bool.eq_iff_iff, hmaybe]
      simp [Reply.IsUnsure]
    have hsaid : silence e failure = e ++ Reply.complaint (.error failure) := by
      cases failure with
      | timedOut => rfl
      | unreachable cause => exact String.append_assoc
    dsimp only
    rw [hflag, hsaid]
  | ok response =>
    have hfault : 500 ≤ response.status ∧ response.status ≤ 599 := by
      by_contra hfine
      exact h ⟨response, rfl, hfine⟩
    have hflag : maybe' = true := hmaybe.2 (.inr (.inr ⟨response, rfl, hfault⟩))
    have hsaid : e ++ " returned " ++ Http.statusText response.status =
        e ++ Reply.complaint (.ok response) := String.append_assoc
    dsimp only
    rw [if_pos (isServerFault_iff.2 hfault), hflag, hsaid]

/-- Who answers is the last one to be asked. -/
theorem askInOrder_answered {response : Http.Response}
    (hask : askEndpoint http a within e w = (.ok response, v))
    (h : ¬ (500 ≤ response.status ∧ response.status ≤ 599))
    (es : List String) (last : String) (maybe : Bool) :
    askInOrder http a within (e :: es) last maybe w = (.ok ⟨response, maybe⟩, v) := by
  rw [askInOrder, hask]
  exact if_neg (mt isServerFault_iff.1 h)

/-- Those in front who do not answer leave it to the others, and tell whether one of them is unsure. -/
theorem askInOrder_append
    (h : ∀ x ∈ (tries (askEndpoint http a within) front w).1, ¬ Reply.Answers x.2)
    (back : List String) (last : String) (maybe : Bool) :
    ∃ last' maybe', (maybe' = true ↔ maybe = true ∨
        ∃ x ∈ (tries (askEndpoint http a within) front w).1, Reply.IsUnsure x.2) ∧
      askInOrder http a within (front ++ back) last maybe w =
        askInOrder http a within back last' maybe' (tries (askEndpoint http a within) front w).2 := by
  -- the text and the flag that are handed on change with each endpoint
  induction front generalizing last maybe w with
  | nil => exact ⟨last, maybe, by simp [tries], rfl⟩
  | cons e front ih =>
    rcases hask : askEndpoint http a within e w with ⟨reply, v⟩
    simp only [tries, hask, List.forall_mem_cons] at h
    obtain ⟨maybe₁, hmaybe₁, hpassed⟩ := askInOrder_passed hask h.1 (front ++ back) last maybe
    obtain ⟨last', maybe', hmaybe', hrest⟩ := ih h.2 (e ++ Reply.complaint reply) maybe₁
    refine ⟨last', maybe', ?_, ?_⟩
    · simp only [tries, hask, hmaybe', hmaybe₁, List.exists_mem_cons_iff, or_assoc]
    · simpa only [tries, hask, List.cons_append] using hpassed.trans hrest

/-- The first one who answers decides, and whether those in front are unsure is told with it. -/
theorem send_answered {response : Http.Response} (hc : c.endpoints = front ++ e :: back)
    (hfront : ∀ x ∈ (tries (askEndpoint http a within) front w).1, ¬ Reply.Answers x.2)
    (hask : askEndpoint http a within e (tries (askEndpoint http a within) front w).2 =
      (.ok response, v)) (h : ¬ (500 ≤ response.status ∧ response.status ≤ 599)) :
    ∃ sent, send http c a within w = (.ok sent, v) ∧ sent.response = response ∧
      (sent.maybeApplied = true ↔
        ∃ x ∈ (tries (askEndpoint http a within) front w).1, Reply.IsUnsure x.2) := by
  obtain ⟨last', maybe', hmaybe, hsend⟩ := askInOrder_append hfront (e :: back)
    "no endpoints configured" false
  refine ⟨⟨response, maybe'⟩, ?_, rfl, ?_⟩
  · rw [send, hc, hsend, askInOrder_answered hask h]
  · simpa using hmaybe

/-- If nobody answers, the fault is that of the last one. -/
theorem send_unanswered (hc : c.endpoints = front ++ [e])
    (hfront : ∀ x ∈ (tries (askEndpoint http a within) front w).1, ¬ Reply.Answers x.2)
    (hask : askEndpoint http a within e (tries (askEndpoint http a within) front w).2 = (reply, v))
    (h : ¬ reply.Answers) :
    send http c a within w = (.error (.transient (e ++ reply.complaint)), v) := by
  obtain ⟨last', maybe', -, hsend⟩ := askInOrder_append hfront [e]
    "no endpoints configured" false
  obtain ⟨maybe'', -, hpassed⟩ := askInOrder_passed hask h [] last' maybe'
  rw [send, hc, hsend, hpassed]
  rfl

/-- Those who are asked, down to the one who decides, get the request, and nobody behind that one. -/
theorem send_recorded (hc : c.endpoints = front ++ e :: back)
    (hfront : ∀ x ∈ (tries (askEndpoint http a within) front w).1, ¬ Reply.Answers x.2)
    (hask : askEndpoint http a within e (tries (askEndpoint http a within) front w).2 = (reply, v))
    (hreply : Reply.Answers reply ∨ ¬ Reply.Answers reply ∧ back = []) (log : List Http.Request) :
    send (Http.recorded http) c a within (w, log) =
      ((send http c a within w).1, (send http c a within w).2,
        log ++ (front ++ [e]).filterMap a.sent) := by
  have hfront' : ∀ x ∈ (tries (askEndpoint (Http.recorded http) a within) front (w, log)).1,
      ¬ Reply.Answers x.2 := by
    rwa [tries_recorded]
  have hask' : askEndpoint (Http.recorded http) a within e
      (tries (askEndpoint (Http.recorded http) a within) front (w, log)).2 =
        (reply, v, log ++ (front ++ [e]).filterMap a.sent) := by
    rw [tries_recorded, askEndpoint_recorded, hask]
    cases hsent : a.sent e <;> simp [hsent]
  rcases hreply with ⟨response, rfl, hfine⟩ | ⟨hsilent, rfl⟩
  · obtain ⟨sent, hsend, hresponse, hunsure⟩ := send_answered hc hfront hask hfine
    obtain ⟨sent', hsend', hresponse', hunsure'⟩ := send_answered hc hfront' hask' hfine
    rw [tries_recorded] at hunsure'
    have hsame : sent' = sent := by
      obtain ⟨_, flag⟩ := sent
      obtain ⟨_, flag'⟩ := sent'
      exact congr (congrArg Sent.mk (hresponse'.trans hresponse.symm))
        (Bool.eq_iff_iff.2 (hunsure'.trans hunsure.symm))
    rw [hsend', hsend, hsame]
  · rw [send_unanswered hc hfront' hask' hsilent, send_unanswered hc hfront hask hsilent]

/-! ## The first answer -/

/-- The endpoints of the settings are asked in order, each once, down to the first one who answers with
anything but a fault of its own, and only they get the request. The response is that one's, together with
whether one of those before it may have done what was asked. It is a fault exactly if none of all the
endpoints would answer so, and then the fault names the last one. -/
theorem failover (hc : c.endpoints ≠ []) (http : Http.Transport ω) (a : Ask) (within : Option Nat)
    (w : ω) :
    ∃ before e reply after, c.endpoints = before.map (·.1) ++ e :: after ∧
      tries (askEndpoint http a within) (before.map (·.1) ++ [e]) w =
        (before ++ [(e, reply)], (send http c a within w).2) ∧
      (∀ log, send (Http.recorded http) c a within (w, log) =
        ((send http c a within w).1, (send http c a within w).2,
          log ++ (before.map (·.1) ++ [e]).filterMap a.sent)) ∧
      (∀ x ∈ before, ¬ Reply.Answers x.2) ∧
      ((∃ sent, (send http c a within w).1 = .ok sent ∧ reply = .ok sent.response ∧
          ¬ (500 ≤ sent.response.status ∧ sent.response.status ≤ 599) ∧
          (sent.maybeApplied = true ↔ ∃ x ∈ before, Reply.IsUnsure x.2)) ∨
        ¬ Reply.Answers reply ∧ after = [] ∧
          (send http c a within w).1 = .error (.transient (e ++ Reply.complaint reply))) ∧
      ((∃ f, (send http c a within w).1 = .error f) ↔
        ∀ x ∈ (tries (askEndpoint http a within) c.endpoints w).1, ¬ Reply.Answers x.2) := by
  obtain ⟨front, e, back, reply, v, hsplit, hfront, hask, hreply⟩ :=
    tries_decided (askEndpoint http a within) Reply.Answers hc w
  set before := (tries (askEndpoint http a within) front w).1 with hbefore
  have hnames : before.map (·.1) = front := map_fst_tries front
  have hasked : tries (askEndpoint http a within) (front ++ [e]) w = (before ++ [(e, reply)], v) := by
    rw [tries_concat, hask]
  have hrecorded := send_recorded hsplit hfront hask hreply
  rw [← hnames] at hrecorded
  rcases hreply with ⟨response, rfl, hfine⟩ | ⟨hsilent, rfl⟩
  · obtain ⟨sent, hsend, rfl, hunsure⟩ := send_answered hsplit hfront hask hfine
    refine ⟨before, e, _, back, by rw [hnames, hsplit], by rw [hnames, hasked, hsend], hrecorded,
      hfront, .inl ⟨sent, by rw [hsend], rfl, hfine, hunsure⟩, ?_⟩
    rw [hsend, hsplit, List.append_cons, tries_append, hasked]
    refine iff_of_false (by simp) ?_
    intro hnone
    refine hnone (e, .ok sent.response) ?_ ⟨sent.response, rfl, hfine⟩
    simp
  · have hsend := send_unanswered hsplit hfront hask hsilent
    refine ⟨before, e, reply, [], by rw [hnames, hsplit], by rw [hnames, hasked, hsend], hrecorded,
      hfront, .inr ⟨hsilent, rfl, by rw [hsend]⟩, ?_⟩
    rw [hsend, hsplit, hasked]
    refine iff_of_true ⟨_, rfl⟩ ?_
    exact List.forall_mem_append.2 ⟨hfront, by simpa using hsilent⟩

/-- Of three endpoints, the second one answers behind one that has no time left, and the third is not
asked. Where each of the three has a fault, the fault of the last one is what is told. -/
theorem answer_behind_timeout :
    let replies : Http.Transport (List Reply) := fun _ _ script =>
      (script.headD (.error (.unreachable "connection refused")), script.tail)
    let c : Config :=
      { endpoints := ["http://10.0.0.1:2379", "http://10.0.0.2:2379", "http://10.0.0.3:2379"] }
    let a := Ask.get "/services/orders"
    c.endpoints ≠ [] ∧
    send replies c a none [.error .timedOut, .ok { status := 404 }, .ok { status := 200 }] =
      (.ok ⟨{ status := 404 }, true⟩, [.ok { status := 200 }]) ∧
    (∃ f, (send replies c a none [.error .timedOut, .ok { status := 503 }]).1 = .error f) ∧
    (send replies c a none [.error .timedOut, .ok { status := 503 }]).1 =
      .error (.transient "http://10.0.0.3:2379: connection refused") := by
  intro replies c a
  have hc : c.endpoints ≠ [] := by simp [c]
  obtain ⟨_, _, _, _, -, -, -, -, -, hfails⟩ :=
    failover hc replies a none [.error .timedOut, .ok { status := 503 }]
  refine ⟨hc, by decide +kernel, hfails.2 ?_, by decide +kernel⟩
  have htries : (tries (askEndpoint replies a none) c.endpoints
      [.error .timedOut, .ok { status := 503 }]).1 =
      [("http://10.0.0.1:2379", .error .timedOut), ("http://10.0.0.2:2379", .ok { status := 503 }),
        ("http://10.0.0.3:2379", .error (.unreachable "connection refused"))] := by
    decide +kernel
  simp [htries, Reply.Answers]

end Asking

end Etcd
end Muster
