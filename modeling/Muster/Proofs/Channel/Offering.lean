/-
Which members a call leaves in the rotation. A fault that another attempt may mend starts the rotation
anew, and a member that has failed leaves it. An input or output fault marks the member as failed just as
a lost connection does, but is not mended by another attempt: it ends the call, and the member stays in the
rotation. Main statement: `failed_offered_iff`.
-/
import Muster.Proofs.Channel.Members
import Muster.Proofs.Channel.Retrying
import Muster.Proofs.Channel.Settled

namespace Muster

variable {ω ς : Type}

/-- Where no connection can be made, that is what is said. -/
def Network.Plain (net : Network ω ς) : Prop :=
  ∀ addr within w f, (net.connect addr within w).1 = .error f → ∃ cause, f = .connection cause

namespace Channel

variable {net : Network ω ς} {c c₁ c₂ : Channel ς} {w w₁ w₂ : ω} {i j : Nat}

/-! ## One exchange -/

namespace Subchannel

variable {s s' : Subchannel ς} {x : Except Fault Wire.Response}

theorem stateAfter_final {f : Fault} (hf : f.isRetryable = false) :
    stateAfter f = .transientFailure ↔ ∃ cause, f = .io cause := by
  cases f with
  | connection cause => cases hf
  | _ => simp [stateAfter]

/-- What an exchange that is not attempted again makes of a subchannel. -/
theorem endExchange_failed (hopen : s.state ≠ .shutdown) (hs : s.state ≠ .transientFailure)
    (hx : ∀ f, x = .error f → f.isRetryable = false) :
    (s.endExchange x).state = .transientFailure ↔ ∃ cause, x = .error (.io cause) := by
  cases x with
  | ok response => simpa [endExchange] using hs
  | error f =>
    have hstate : (s.endExchange (.error f)).state = stateAfter f := by
      exact enter_open (c := { s with stream := none }) hopen _
    rw [hstate, stateAfter_final (hx f rfl)]
    simp

theorem call_failed (hnet : net.Plain) (hs : s.state ≠ .transientFailure) {connectWithin within : Nat}
    {r : Wire.Request} (hcall : s.call net connectWithin r within w = (x, s', w₁))
    (hx : ∀ f, x = .error f → f.isRetryable = false) :
    s'.state = .transientFailure ↔ ∃ cause, x = .error (.io cause) := by
  unfold call connect at hcall
  cases happroach : s.approach with
  | refused f =>
    -- nothing has been sent
    obtain ⟨-, rfl⟩ := approach_refused happroach
    rw [happroach] at hcall
    cases hcall
    cases hx _ rfl
  | standing stream =>
    rw [happroach] at hcall
    cases hcall
    exact endExchange_failed (approach_standing happroach).1 hs hx
  | dialing =>
    rcases hconnect : net.connect s.addr connectWithin w with ⟨f | stream, w'⟩
    · obtain ⟨cause, rfl⟩ := hnet _ _ _ f (congrArg Prod.fst hconnect)
      rw [happroach] at hcall
      simp only [hconnect] at hcall
      cases hcall
      cases hx _ rfl
    · rw [happroach] at hcall
      simp only [hconnect] at hcall
      cases hcall
      have hbegun : s.beginConnect.state = .connecting := enter_open (approach_dialing happroach).1 _
      have hready : (s.beginConnect.endConnect (.ok stream)).state = .ready := by
        exact enter_open (c := { s.beginConnect with stream := some stream }) (by simp [hbegun]) _
      exact endExchange_failed (by simp [hready]) (by simp [hready]) hx

end Subchannel

/-! ## The rotation -/

/-- A member is offered though it has failed. -/
def Astray (c : Channel ς) (i : Nat) : Prop :=
  i ∈ c.rotation.entries ∧ c.stateOf i = .transientFailure

/-- Nothing that is offered has failed. -/
def Unfailed (c : Channel ς) : Prop := ∀ i, ¬ c.Astray i

theorem unfailed_rotate (c : Channel ς) : c.rotate.Unfailed := by
  rintro i ⟨hi, hfailed⟩
  have hready : i ∈ c.ready := hi
  unfold ready at hready
  split at hready
  · cases hready
  · have hstate : c.stateOf i = .ready := by simpa using (List.mem_filter.1 hready).2
    cases hstate.symm.trans hfailed

/-- Whatever was offered before, an address set that is in place offers nothing that has failed. -/
theorem unfailed_apply (hopen : c.closed = false) (set : AddressSet) (w : ω) :
    (c.apply net set w).1.Unfailed := by
  rw [apply, if_neg (by simp [hopen])]
  exact unfailed_rotate _

namespace Unfailed

theorem next {pick : Option Nat} (h : c.Unfailed) (hnext : c.next = (pick, c₁)) :
    c₁.Unfailed ∧ ∀ i, pick = some i → i ∈ c₁.rotation.entries := by
  obtain ⟨⟨cursor, rfl⟩, hpick⟩ := next_spec hnext
  exact ⟨h, hpick⟩

theorem reconnect (net : Network ω ς) (h : c.Unfailed) (w : ω) : (c.reconnect net w).1.Unfailed := by
  unfold Channel.reconnect
  split
  · exact h
  · split
    · exact h
    · exact unfailed_rotate _

theorem pick {pick : Except Fault Nat} (h : c.Unfailed) (hpick : c.pick net w = (pick, c₁, w₁)) :
    c₁.Unfailed ∧ ∀ i, pick = .ok i → i ∈ c₁.rotation.entries := by
  obtain ⟨i, rfl, hnext, -⟩ | ⟨d, -, hrec, hagain⟩ := pick_cases net hpick
  · obtain ⟨h₁, hi⟩ := h.next hnext
    refine ⟨h₁, ?_⟩
    rintro j ⟨⟩
    exact hi i rfl
  · have hd : d.Unfailed := by
      have hrec' := (h.next (Prod.eta c.next).symm).1.reconnect net w
      rwa [hrec] at hrec'
    obtain ⟨i, rfl, hnext⟩ | ⟨rfl, hnext⟩ := hagain
    · obtain ⟨h₁, hi⟩ := hd.next hnext
      refine ⟨h₁, ?_⟩
      rintro j ⟨⟩
      exact hi i rfl
    · exact ⟨(hd.next hnext).1, nofun⟩

end Unfailed

/-- An exchange with a member that is offered, behind which there is no other one. -/
theorem callMember_astray_iff (hnet : net.Plain) (h : c.Unfailed) (hi : i ∈ c.rotation.entries)
    {r : Wire.Request} {within : Nat} {x : Except Fault Wire.Response}
    (hcall : c.callMember net i r within w = (x, c₁, w₁))
    (hx : ∀ f, x = .error f → f.isRetryable = false) :
    c₁.Astray j ↔ i = j ∧ ∃ cause, x = .error (.io cause) := by
  unfold callMember at hcall
  cases hs : c.subchannel? i with
  | none =>
    rw [hs] at hcall
    cases hcall
    cases hx _ rfl
  | some s =>
    rcases hsub : s.call net c.options.connectTimeout r within w with ⟨x', s', w'⟩
    simp only [hs, hsub] at hcall
    cases hcall
    have hstate : s.state ≠ .transientFailure := fun hs' =>
      h i ⟨hi, (stateOf_of_subchannel? hs).trans hs'⟩
    by_cases hij : i = j
    · subst hij
      have hs' : (c.update i fun _ => s').subchannel? i = some s' := by
        rw [subchannel?_update, if_pos rfl, hs]
        rfl
      have hentries : i ∈ (c.update i fun _ => s').rotation.entries := hi
      simp only [Astray, hentries, true_and, stateOf_of_subchannel? hs']
      exact Subchannel.call_failed hnet hstate hsub hx
    · have hsame : (c.update i fun _ => s').stateOf j = c.stateOf j := by
        rw [stateOf, stateOf, subchannel?_update, if_neg (Ne.symm hij)]
      simp only [Astray, hsame, hij, false_and, iff_false]
      exact h j

/-! ## Calls -/

/-- The last exchange was with this member, and an input or output fault has ended it. -/
def Broke (xs : List Exchange) (i : Nat) : Prop :=
  ∃ x, xs.getLast? = some x ∧ x.member = i ∧ ∃ cause, x.outcome = .error (.io cause)

theorem not_broke_nil (i : Nat) : ¬ Broke [] i := by
  rintro ⟨x, hlast, -⟩
  cases hlast

theorem not_broke_of_mendable {xs : List Exchange} {x : Exchange} (hlast : xs.getLast? = some x)
    {f : Fault} (hx : x.outcome = .error f) (hf : f.isRetryable = true) (i : Nat) : ¬ Broke xs i := by
  rintro ⟨y, hlast', -, cause, hy⟩
  cases hlast.symm.trans hlast'
  cases hx.symm.trans hy
  cases hf

/-- Behind its exchanges, a call has led astray whatever has broken off the last of them. -/
theorem Course.astray_iff (hnet : net.Plain) {r : Wire.Request} {within : Nat} {s s' : Channel ς × ω}
    {xs : List Exchange} (h : Course net r within s xs s') (hs : s.1.Unfailed)
    (hmend : ∀ x ∈ xs.dropLast, x.Mendable) : s'.1.Astray j ↔ Broke xs j := by
  induction h with
  | rest s => exact iff_of_false (hs j) (not_broke_nil j)
  | @attempt c c₁ c₂ w w₁ w₂ i x xs s hpick hcall hrest ih =>
    obtain ⟨h₁, hi⟩ := hs.pick hpick
    cases xs with
    | nil =>
      cases hrest
      cases x with
      | ok response =>
        rw [behind, callMember_astray_iff hnet h₁ (hi i rfl) hcall nofun]
        simp [Broke]
      | error f =>
        by_cases hf : f.isRetryable = true
        · rw [behind_retried hf]
          exact iff_of_false (unfailed_rotate _ j) (not_broke_of_mendable rfl rfl hf j)
        · rw [behind_barred hf, callMember_astray_iff hnet h₁ (hi i rfl) hcall (by simpa using hf)]
          simp [Broke]
    | cons y ys =>
      -- the fault was mended, so the rotation has been started anew
      obtain ⟨f, rfl, hf⟩ := hmend _ List.mem_cons_self
      rw [behind_retried hf] at ih
      exact ih (unfailed_rotate c₂) fun z hz => hmend z (List.mem_cons_of_mem _ hz)

/-- Nothing that comes behind the exchanges changes that. -/
theorem Ended.astray_iff {attempts : Nat} {otherwise : Fault} {xs : List Exchange}
    {s : Channel ς × ω} {result : Except Fault Json.Value × Channel ς × ω}
    (h : Ended net attempts otherwise xs s result) (hs : ∀ i, s.1.Astray i ↔ Broke xs i) :
    result.2.1.Astray j ↔ Broke xs j := by
  -- a pick that fails finds nothing astray where no exchange has been broken off
  have hpicked {g : Fault} {s' : Channel ς × ω} (hnone : ∀ i, ¬ Broke xs i)
      (hpick : s.1.pick net s.2 = (.error g, s')) : s'.1.Astray j ↔ Broke xs j := by
    have hunfailed : s.1.Unfailed := fun i hi => hnone i ((hs i).1 hi)
    exact iff_of_false ((hunfailed.pick hpick).1 j) (hnone j)
  cases h with
  | answered _ _ => exact hs j
  | barred _ _ _ => exact hs j
  | exhausted _ _ _ _ => exact hs j
  | stranded hlast hx hf _ hpick => exact hpicked (not_broke_of_mendable hlast hx hf) hpick
  | unpicked hnil hpick =>
    subst hnil
    exact hpicked not_broke_nil hpick

/-- No response tells of an input or output fault. -/
theorem outcome_not_io (response : Wire.Response) (cause : String) :
    response.outcome ≠ .error (.io cause) := by
  unfold Wire.Response.outcome
  split
  · split
    · nofun
    · nofun
  · split
    · nofun
    · nofun
    · nofun

/-- A call fails with an input or output fault exactly if that has broken off its last exchange. -/
theorem Ended.io_iff {attempts : Nat} {otherwise : Fault} {xs : List Exchange}
    {s : Channel ς × ω} {result : Except Fault Json.Value × Channel ς × ω}
    (h : Ended net attempts otherwise xs s result) (ho : ∀ cause, otherwise ≠ .io cause) :
    (∃ cause, result.1 = .error (.io cause)) ↔ ∃ i, Broke xs i := by
  have hmended {x : Exchange} {f : Fault} (hlast : xs.getLast? = some x) (hx : x.outcome = .error f)
      (hf : f.isRetryable = true) : (∃ cause, f = .io cause) ↔ ∃ i, Broke xs i := by
    refine iff_of_false ?_ fun ⟨i, hi⟩ => not_broke_of_mendable hlast hx hf i hi
    rintro ⟨cause, rfl⟩
    cases hf
  cases h with
  | answered hlast hok =>
    refine iff_of_false (fun ⟨cause, hcause⟩ => outcome_not_io _ cause hcause) ?_
    rintro ⟨i, y, hlast', -, cause, hy⟩
    cases hlast.symm.trans hlast'
    cases hok.symm.trans hy
  | barred hlast hx _ =>
    constructor
    · rintro ⟨cause, ⟨⟩⟩
      exact ⟨_, _, hlast, rfl, cause, hx⟩
    · rintro ⟨i, y, hlast', -, cause, hy⟩
      cases hlast.symm.trans hlast'
      cases hx.symm.trans hy
      exact ⟨cause, rfl⟩
  | exhausted hlast hx hf _ => simpa using hmended hlast hx hf
  | stranded hlast hx hf _ _ => simpa using hmended hlast hx hf
  | unpicked hnil _ =>
    subst hnil
    refine iff_of_false ?_ fun ⟨i, hi⟩ => not_broke_nil i hi
    rintro ⟨cause, hcause⟩
    exact ho cause (by simpa using hcause)

/-! ## The law of the rotation -/

/-- A call over an open channel whose rotation offers nothing that has failed, to peers that may do what
they like: it leaves a member in the rotation that has failed exactly if its last exchange was with this
member and was broken off by an input or output fault, which then is what the call ends with. Whatever else
a call ends with, nothing that is offered has failed. The next address set mends the rotation. -/
theorem failed_offered_iff (hnet : net.Plain) (c : Channel ς) (hopen : c.closed = false)
    (hc : c.Unfailed) (r : Wire.Request) (w : ω) :
    (∃ xs s, Course net r (r.timeoutOr c.options.callTimeout) (c, w) xs s ∧
      (∀ i, (c.invoke net r w).2.1.Astray i ↔ Broke xs i) ∧
      ((c.invoke net r w).2.1.Unfailed ↔ ∀ cause, (c.invoke net r w).1 ≠ .error (.io cause))) ∧
    ∀ (d : Channel ς) (set : AddressSet) (w : ω), d.closed = false →
      (d.apply net set w).1.Unfailed := by
  obtain ⟨xs, s, hall⟩ := invoke_course net hopen r w
  have hastray (i : Nat) : (c.invoke net r w).2.1.Astray i ↔ Broke xs i :=
    hall.ended.astray_iff fun i => hall.course.astray_iff hnet hc hall.mendable
  refine ⟨⟨xs, s, hall.course, hastray, ?_⟩, fun d set w hd => unfailed_apply hd set w⟩
  have hio := hall.ended.io_iff nofun
  rw [← not_iff_not]
  simp only [Unfailed, hastray, not_forall, not_not]
  exact hio.symm

/-- Peers that are cut off while they are waited for. -/
def severed : Network Nat Unit where
  connect _ _ w := (.ok (), w)
  send _ _ w := (.ok (), w)
  receive _ _ w := (.error (.io "No route to host (os error 113)"), w)

/-- The only member has failed, and is still offered. -/
theorem severed_still_offered :
    let r : Wire.Request := { id := 1, method := "m", args := .null }
    let after := oneReady.invoke severed r 0
    after.1 = .error (.io "No route to host (os error 113)") ∧ ¬ after.2.1.Unfailed ∧
      after.2.1.Astray 0 ∧ after.2.1.state = .transientFailure := by
  intro r after
  have hplain : severed.Plain := fun _ _ _ _ h => by cases h
  have hready : oneReady.Unfailed := by
    rintro i ⟨hi, hfailed⟩
    obtain rfl := List.mem_singleton.1 hi
    cases hfailed
  obtain ⟨⟨xs, s, -, -, hunfailed⟩, -⟩ := failed_offered_iff hplain oneReady rfl hready r 0
  exact ⟨rfl, fun h => hunfailed.1 h _ rfl, ⟨List.mem_singleton_self 0, rfl⟩, rfl⟩

end Channel
end Muster
