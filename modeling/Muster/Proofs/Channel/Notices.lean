/-
What a channel has heard. A fault changes nothing but what is known of the resolution, so that it keeps the
latest set with all that belongs to it; and of the resolution the first notice tells, until a set has been
applied. Main statement: `last_set_kept`.
-/
import Muster.Channel.Dial
import Muster.Channel.Sink
import Muster.Proofs.Channel.Subchannels

namespace Muster.Channel

open Resolver (Notice)

variable {ω ς : Type} {c : Channel ς} {ns : List Notice}

/-! ## All but what has been told -/

/-- The channel as if nothing were known of its resolution. -/
def untold (c : Channel ς) : Channel ς := { c with resolution := .pending, lastError := none }

@[simp] theorem untold_untold (c : Channel ς) : c.untold.untold = c.untold := rfl

theorem untold_report (c : Channel ς) (f : Fault) : (c.report f).untold = c.untold := rfl

@[simp] theorem untold_resolved (c : Channel ς) : c.resolved.untold = c.untold := rfl

@[simp] theorem rotate_untold (c : Channel ς) : c.untold.rotate = c.rotate.untold := rfl

theorem membersFor_untold (as : List Address) (c : Channel ς) :
    c.untold.membersFor as = ((c.membersFor as).1.untold, (c.membersFor as).2) := by
  induction as generalizing c with
  | nil => rfl
  | cons a as ih =>
    have hmembers : c.untold.members = c.members := rfl
    unfold membersFor
    rw [hmembers]
    split
    · rw [ih c]
    · have hnew := ih { c with created := c.created ++ [{ addr := a.addr }] }
      simp only [untold] at hnew ⊢
      rw [hnew]

theorem replace_untold (set : AddressSet) (c : Channel ς) :
    c.untold.replace set = ((c.replace set).1.untold, (c.replace set).2) := by
  unfold replace
  rw [membersFor_untold]
  rfl

theorem shutdownAll_untold (is : List Nat) (c : Channel ς) :
    c.untold.shutdownAll is = (c.shutdownAll is).untold := by
  induction is generalizing c with
  | nil => rfl
  | cons i is ih => exact ih (c.update i Subchannel.shutdown)

variable (net : Network ω ς)

theorem connectAll_untold (is : List Nat) (c : Channel ς) (w : ω) :
    connectAll net is c.untold w = ((connectAll net is c w).1.untold, (connectAll net is c w).2) := by
  induction is generalizing c w with
  | nil => rfl
  | cons i is ih =>
    have hsub : c.untold.subchannel? i = c.subchannel? i := rfl
    unfold connectAll
    rw [hsub]
    split
    · exact ih c w
    · rename_i s _
      exact ih (c.update i fun _ => (s.connect net c.options.connectTimeout w).2.1) _

theorem apply_untold (set : AddressSet) (c : Channel ς) (w : ω) :
    ((c.untold.apply net set w).1.untold, (c.untold.apply net set w).2) =
      ((c.apply net set w).1.untold, (c.apply net set w).2) := by
  have hclosed : c.untold.closed = c.closed := rfl
  unfold apply
  rw [hclosed]
  split
  · rfl
  · simp only [replace_untold, shutdownAll_untold, connectAll_untold net, rotate_untold, untold_resolved,
      untold_untold]

theorem apply_congr {d : Channel ς} (h : c.untold = d.untold) (set : AddressSet) (w : ω) :
    (c.apply net set w).1.untold = (d.apply net set w).1.untold ∧
      (c.apply net set w).2 = (d.apply net set w).2 := by
  have hc := apply_untold net set c w
  have hd := apply_untold net set d w
  rw [h] at hc
  exact Prod.mk.inj (hc.symm.trans hd)

/-! ## An address set -/

/-- Whatever is connected and given up for it, an address set is in place in the end. -/
theorem apply_open (hopen : c.closed = false) (set : AddressSet) (w : ω) :
    (c.apply net set w).1.closed = false ∧ (c.apply net set w).1.addresses = set ∧
      (c.apply net set w).1.resolution = .resolved := by
  have hreplace : (c.replace set).1.closed = c.closed := (membersFor_spec c set.addresses).closed
  obtain ⟨left, hleft⟩ := shutdownAll_created (c.replace set).2.stale (c.replace set).1
  obtain ⟨connected, hconnected⟩ :=
    connectAll_created net (c.replace set).2.pending ((c.replace set).1.shutdownAll _) w
  have happly : (c.apply net set w).1 =
      { (c.replace set).1 with created := connected }.rotate.resolved := by
    rw [apply, if_neg (by simp [hopen])]
    exact congrArg (fun d : Channel ς => d.rotate.resolved) (hconnected.trans (by rw [hleft]))
  rw [happly]
  exact ⟨hreplace.trans hopen, rfl, rfl⟩

/-! ## One notice -/

/-- What is known of the resolution after a notice: a set resolves it, and a fault tells of it only as
long as nothing else is known. -/
def Resolution.after (r : Resolution) : Notice → Resolution
  | .update _ => .resolved
  | .report f => if r = .pending then .failed f.message else r

theorem hear_open (hopen : c.closed = false) (n : Notice) (w : ω) :
    (c.hear net n w).1.closed = false ∧
      (c.hear net n w).1.resolution = c.resolution.after n := by
  cases n with
  | update set =>
    obtain ⟨hclosed, -, hresolution⟩ := apply_open net hopen set w
    exact ⟨hclosed, hresolution⟩
  | report f => exact ⟨hopen, rfl⟩

/-! ## Any notices -/

/-- Notices without the reports among them lead to the same, but for what is known of the resolution. -/
theorem hearAll_untold {d : Channel ς} (h : c.untold = d.untold) (ns : List Notice) (w : ω) :
    (c.hearAll net ns w).1.untold = (d.hearAll net (ns.filter Notice.isUpdate) w).1.untold ∧
      (c.hearAll net ns w).2 = (d.hearAll net (ns.filter Notice.isUpdate) w).2 := by
  induction ns generalizing c d w with
  | nil => exact ⟨h, rfl⟩
  | cons n ns ih =>
    cases n with
    | report f => exact ih ((untold_report c f).trans h) w
    | update set =>
      obtain ⟨happly, hworld⟩ := apply_congr net h set w
      obtain ⟨huntold, hrest⟩ := ih happly (c.apply net set w).2
      refine ⟨huntold.trans ?_, hrest.trans ?_⟩
      · rw [hworld]
        rfl
      · rw [hworld]
        rfl

theorem hearAll_open (hopen : c.closed = false) (ns : List Notice) (w : ω) :
    (c.hearAll net ns w).1.closed = false ∧
      (c.hearAll net ns w).1.resolution = ns.foldl Resolution.after c.resolution := by
  induction ns generalizing c w with
  | nil => exact ⟨hopen, rfl⟩
  | cons n ns ih =>
    obtain ⟨hclosed, hresolution⟩ := hear_open net hopen n w
    obtain ⟨hclosed', hresolution'⟩ := ih hclosed (c.hear net n w).2
    exact ⟨hclosed', hresolution'.trans (by rw [hresolution]; rfl)⟩

theorem hearAll_append (ns ms : List Notice) (c : Channel ς) (w : ω) :
    c.hearAll net (ns ++ ms) w =
      (c.hearAll net ns w).1.hearAll net ms (c.hearAll net ns w).2 := by
  induction ns generalizing c w with
  | nil => rfl
  | cons n ns ih => exact ih _ _

theorem after_resolved_iff (ns : List Notice) (r : Resolution) :
    ns.foldl Resolution.after r = .resolved ↔ r = .resolved ∨ ∃ set, .update set ∈ ns := by
  induction ns generalizing r with
  | nil => simp
  | cons n ns ih =>
    rw [List.foldl_cons, ih]
    cases n with
    | update set => simp [Resolution.after]
    | report f => cases r <;> simp [Resolution.after]

theorem after_failed_iff (ns : List Notice) (r : Resolution) (m : String) :
    ns.foldl Resolution.after r = .failed m ↔ (∀ set, .update set ∉ ns) ∧
      (r = .failed m ∨ r = .pending ∧ ∃ f rest, ns = .report f :: rest ∧ f.message = m) := by
  induction ns generalizing r with
  | nil => simp
  | cons n ns ih =>
    rw [List.foldl_cons, ih]
    cases n with
    | update set =>
      constructor
      · rintro ⟨-, hfailed | ⟨hpending, -⟩⟩
        · cases hfailed
        · cases hpending
      · rintro ⟨hnone, -⟩
        exact absurd List.mem_cons_self (hnone set)
    | report f => cases r <;> simp [Resolution.after]

/-- Reports alone leave the channel and its peers as they are. -/
theorem hearAll_reports (h : ∀ set, .update set ∉ ns) (w : ω) :
    (c.hearAll net ns w).1.untold = c.untold ∧ (c.hearAll net ns w).2 = w := by
  have hnone : ns.filter Notice.isUpdate = [] := by
    rw [List.filter_eq_nil_iff]
    intro n hn
    cases n with
    | update set => exact absurd hn (h set)
    | report f => exact Bool.false_ne_true
  have huntold := hearAll_untold net (c := c) rfl ns w
  rw [hnone] at huntold
  exact huntold

/-- The addresses are those of the latest set. -/
theorem hearAll_addresses (hopen : c.closed = false) {before after : List Notice} {set : AddressSet}
    (h : ∀ s, .update s ∉ after) (w : ω) :
    (c.hearAll net (before ++ .update set :: after) w).1.addresses = set := by
  obtain ⟨hbefore, -⟩ := hearAll_open net hopen before w
  obtain ⟨-, haddresses, -⟩ := apply_open net hbefore set (c.hearAll net before w).2
  obtain ⟨huntold, -⟩ := hearAll_reports net h
    (c := ((c.hearAll net before w).1.apply net set (c.hearAll net before w).2).1)
    ((c.hearAll net before w).1.apply net set (c.hearAll net before w).2).2
  rw [hearAll_append net]
  exact (congrArg Channel.addresses huntold).trans haddresses

/-! ## The dial -/

theorem dialed_ok_iff (firesAfter : Option Nat) :
    c.dialed firesAfter = .ok () ↔ c.resolution = .resolved := by
  unfold dialed
  cases c.resolution with
  | pending =>
    cases firesAfter with
    | none => simp [Resolution.answer?]
    | some t =>
      simp only [Resolution.answer?, reduceCtorEq, iff_false]
      split
      · nofun
      · nofun
  | resolved => simp [Resolution.answer?]
  | failed m => simp [Resolution.answer?]

theorem dialed_failed {m : String} (h : c.resolution = .failed m) (firesAfter : Option Nat) :
    c.dialed firesAfter = .error (.transient m) := by
  unfold dialed
  rw [h]
  rfl

/-! ## The law of notices -/

/-- An open channel hears any notices one after another. Its peers, and all of the channel but what is
known of the resolution, are in the end as if no fault had been reported: the addresses, the members with
the subchannels in their states, the rotation. Its addresses are those of the latest set. The resolution
is resolved from the first set on, and has failed only with the fault that came before anything else. A
dial that looks at it then has come through exactly if there has been a set, and otherwise fails with that
fault. -/
theorem last_set_kept (c : Channel ς) (hopen : c.closed = false)
    (ns : List Notice) (w : ω) :
    let told := c.hearAll net ns w
    let kept := c.hearAll net (ns.filter Notice.isUpdate) w
    (told.1 = { kept.1 with resolution := told.1.resolution, lastError := told.1.lastError } ∧
      told.2 = kept.2 ∧ told.1.closed = false) ∧
    (∀ before set after, ns = before ++ .update set :: after → (∀ s, .update s ∉ after) →
      told.1.addresses = set) ∧
    (told.1.resolution = .resolved ↔ c.resolution = .resolved ∨ ∃ set, .update set ∈ ns) ∧
    (∀ m, told.1.resolution = .failed m ↔ (∀ set, .update set ∉ ns) ∧
      (c.resolution = .failed m ∨
        c.resolution = .pending ∧ ∃ f rest, ns = .report f :: rest ∧ f.message = m)) ∧
    (c.resolution = .pending → ∀ firesAfter,
      (told.1.dialed firesAfter = .ok () ↔ ∃ set, .update set ∈ ns) ∧
      ∀ f rest, ns = .report f :: rest → (∀ set, .update set ∉ ns) →
        told.1.dialed firesAfter = .error (.transient f.message)) := by
  intro told kept
  obtain ⟨huntold, hworld⟩ := hearAll_untold net (c := c) rfl ns w
  obtain ⟨hclosed, hresolution⟩ := hearAll_open net hopen ns w
  have hresolved : told.1.resolution = .resolved ↔
      c.resolution = .resolved ∨ ∃ set, .update set ∈ ns := by
    rw [hresolution]
    exact after_resolved_iff ns c.resolution
  have hfailed (m : String) : told.1.resolution = .failed m ↔ (∀ set, .update set ∉ ns) ∧
      (c.resolution = .failed m ∨
        c.resolution = .pending ∧ ∃ f rest, ns = .report f :: rest ∧ f.message = m) := by
    rw [hresolution]
    exact after_failed_iff ns c.resolution m
  refine ⟨⟨?_, hworld, hclosed⟩, ?_, hresolved, hfailed, ?_⟩
  · exact congrArg (fun d : Channel ς =>
      { d with resolution := told.1.resolution, lastError := told.1.lastError }) huntold
  · rintro before set after rfl hafter
    exact hearAll_addresses net hopen hafter w
  · intro hpending firesAfter
    constructor
    · rw [dialed_ok_iff, hresolved, hpending]
      simp
    · intro f rest hns hnone
      exact dialed_failed ((hfailed f.message).2 ⟨hnone, .inr ⟨hpending, f, rest, hns, rfl⟩⟩) firesAfter

/-- A world in which only one address is listened at. -/
def loneListener : Network Unit Unit where
  connect addr _ w := (if addr = "a" then .ok () else .error (.connection "refused"), w)
  send _ _ w := (.ok (), w)
  receive _ within w := (.error (.timeout within), w)

/-- Two addresses, one of them dead, between two faults of the resolver. -/
def faultsAround : List Notice :=
  [.report (.transient "down"), .update ⟨[{ addr := "a" }, { addr := "b" }]⟩, .report (.transient "late")]

/-- The first fault is mended, and the second one does no harm. -/
theorem faults_forgotten :
    let c : Channel Unit := { target := .ofService "test" "orders" }
    let told := (c.hearAll loneListener faultsAround ()).1
    told.members = [("a", 0), ("b", 1)] ∧ told.rotation.entries = [0] ∧
      told.addresses = ⟨[{ addr := "a" }, { addr := "b" }]⟩ ∧ told.dialed none = .ok () ∧
      ((c.hearAll loneListener (faultsAround.take 1) ()).1.dialed none =
        .error (.transient (Fault.transient "down").message)) := by
  intro c told
  obtain ⟨⟨hsame, -, -⟩, haddresses, -, -, hdial⟩ := last_set_kept loneListener c rfl faultsAround ()
  obtain ⟨-, -, -, -, hfirst⟩ := last_set_kept loneListener c rfl (faultsAround.take 1) ()
  have hset : ∃ set, .update set ∈ faultsAround := ⟨_, List.mem_cons_of_mem _ List.mem_cons_self⟩
  refine ⟨?_, ?_, haddresses [_] _ [_] rfl (by simp), ((hdial rfl none).1).2 hset,
    (hfirst rfl none).2 _ [] rfl (by simp [faultsAround])⟩
  · rw [show told = _ from hsame]
    decide +kernel
  · rw [show told = _ from hsame]
    decide +kernel

end Muster.Channel
