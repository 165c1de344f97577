/-
The two ways to a service: by its bare name under the scheme of the settings, and by the text of the
target that this makes. Settings are accepted with any scheme that is not empty, whereas a text is read
only with a scheme of letters, digits, `+`, `-` and `.`; so the ways agree exactly for such schemes, and
under any other one the text is refused or names another service. Main statement: `dialed_alike_iff`.
-/
import Muster.Client.Context
import Muster.Proofs.Client.Moves
import Muster.Proofs.Target

namespace Muster

/-! ## The text of a service -/

namespace Target

variable {t u : Target} {scheme name : String}

theorem parse_toText_iff : parse t.toText = .ok t ↔ t.IsSound := by
  rw [parse_ok_iff, and_iff_left rfl]

theorem isSound_ofService : (ofService scheme name).IsSound ↔
    scheme ≠ "" ∧ (∀ c ∈ scheme.toList, isSchemeChar c = true) ∧ name ≠ "" := by
  have hchars : (∀ c ∈ scheme.toList, isSchemeChar c = true) ↔
      ∀ c ∈ scheme.toList, c.isAlphanum ∨ c = '+' ∨ c = '-' ∨ c = '.' := by
    simp [isSchemeChar, or_assoc]
  constructor
  · rintro ⟨hnamed, hscheme, -, hendpoint⟩
    exact ⟨hnamed, hchars.2 hscheme, hendpoint⟩
  · rintro ⟨hnamed, hscheme, hendpoint⟩
    exact ⟨hnamed, hchars.1 hscheme, List.not_mem_nil, hendpoint⟩

/-- The text of a service's target that is read as a target of the service is read as that one. -/
theorem eq_ofService_of_parse (h : parse (ofService scheme name).toText = .ok u)
    (hservice : u.service = name) : u = ofService scheme name := by
  obtain ⟨hsound, htext⟩ := spelled_of_parse h
  obtain ⟨uscheme, authority, endpoint⟩ := u
  cases hservice
  have hlist : uscheme.toList ++ [':', '/', '/'] ++ authority.toList =
      scheme.toList ++ [':', '/', '/'] := by
    rw [← String.toList_inj, toList_toText, toList_toText] at htext
    refine List.append_cancel_right (?_ : _ ++ ('/' :: endpoint.toList) = _)
    simpa [ofService, service] using htext
  -- an authority behind the mark would end with the slash that the mark ends with
  rcases List.eq_nil_or_concat authority.toList with hnone | ⟨front, c, hsome⟩
  · rw [hnone, List.append_nil] at hlist
    cases String.toList_eq_nil_iff.1 hnone
    cases String.toList_inj.1 (List.append_cancel_right hlist)
    rfl
  · have hlast := congrArg List.getLast? hlist
    rw [hsome, List.concat_eq_append, ← List.append_assoc, List.getLast?_concat,
      List.getLast?_append] at hlast
    have hslash : c = '/' := Option.some.inj hlast
    refine absurd ?_ hsound.authority
    rw [hsome, hslash]
    simp

end Target

namespace Client

/-! ## A name that nobody wants yet -/

variable {ω ς σ : Type}

namespace Desk

variable {d : Desk ς} {id : Nat} {name : String}

/-- Nothing is cached under the name and nobody queues for it, and the number of a next caller is free. -/
structure IsNew (d : Desk ς) (name : String) : Prop where
  absent : d.cache.find? name = none
  alone : d.cache.queue name = []
  free : d.caller? d.callers.length = none

/-- A caller who finds nothing cached goes on by whether the right to dial is his. -/
theorem step_looking {p : Progress} (hc : d.caller? id = some { name })
    (habsent : d.cache.find? name = none) (hp : (if d.cache.holds name id then .dialing else .joining) = p) :
    d.step id = some (d.turned id p d.cache d.channels) := by
  subst hp
  simp only [step, hc, habsent, Option.bind_eq_bind, Option.bind_some]
  rfl

/-- The only caller of a name that nothing is cached for looks, queues, looks again when its turn has
come, and dials. -/
theorem advance_alone (habsent : d.cache.find? name = none) (halone : d.cache.queue name = [])
    (hfree : d.caller? id = none) : ∃ e : Desk ς, advance id 8 (d.enter id name) = e ∧
      e.caller? id = some { name, progress := .dialing } ∧ e.channels = d.channels := by
  let queued : Cache := d.cache.setQueue name [id]
  let d₀ := d.enter id name
  let d₁ := d₀.turned id .joining d.cache d.channels
  let d₂ := d₁.turned id .queued queued d.channels
  let d₃ := d₂.turned id .looking queued d.channels
  let d₄ := d₃.turned id .dialing queued d.channels
  have hc₀ : d₀.caller? id = some { name } := by rw [caller?_enter d hfree, if_pos rfl]
  have hc₁ : d₁.caller? id = some { name, progress := .joining } := by
    rw [caller?_turned hc₀, if_pos rfl]
  have hc₂ : d₂.caller? id = some { name, progress := .queued } := by
    rw [caller?_turned hc₁, if_pos rfl]
  have hc₃ : d₃.caller? id = some { name } := by rw [caller?_turned hc₂, if_pos rfl]
  have hc₄ : d₄.caller? id = some { name, progress := .dialing } := by
    rw [caller?_turned hc₃, if_pos rfl]
  have hholds : queued.holds name id = true := by simp [queued, Cache.holds]
  have h₀ : d₀.step id = some d₁ := step_looking hc₀ habsent (by simp [d₀, enter, Cache.holds, halone])
  have h₁ : d₁.step id = some d₂ := by
    simp only [step, hc₁, Option.bind_eq_bind, Option.bind_some, join]
    show some (d₁.turned id .queued (d.cache.setQueue name (d.cache.queue name ++ [id])) d.channels) = _
    rw [halone]
    rfl
  have h₂ : d₂.step id = some d₃ := by
    simp only [step, hc₂, Option.bind_eq_bind, Option.bind_some]
    exact if_pos hholds
  have h₃ : d₃.step id = some d₄ := step_looking hc₃ habsent (if_pos hholds)
  have h₄ : d₄.step id = none := by simp only [step, hc₄, Option.bind_eq_bind, Option.bind_some]
  refine ⟨d₄, ?_, hc₄, rfl⟩
  show advance id 8 d₀ = d₄
  simp only [advance, h₀, h₁, h₂, h₃, h₄]

/-- A dial that has ended is the result of who dialed, and its channel stands behind the others. -/
theorem result?_dialed (hc : d.caller? id = some { name, progress := .dialing })
    (r : Except Fault (Channel ς)) :
    (d.dialed id name r).result? id = some (r.map fun _ => d.channels.length) ∧
      (d.dialed id name r).channels = d.channels ++ r.toOption.toList := by
  cases r with
  | error f =>
    have hturned : d.dialed id name (.error f) =
        d.turned id (.failed f) (d.cache.leave name id) d.channels := rfl
    rw [hturned, result?, caller?_turned hc, if_pos rfl]
    exact ⟨rfl, (List.append_nil _).symm⟩
  | ok channel =>
    have hturned : d.dialed id name (.ok channel) = d.turned id (.served d.channels.length)
        ((d.cache.insert name d.channels.length).leave name id) (d.channels ++ [channel]) := rfl
    rw [hturned, result?, caller?_turned hc, if_pos rfl]
    exact ⟨rfl, rfl⟩

end Desk

/-! ## Both ways -/

namespace Context

variable {c : Context ς} {name text : String} {t : Target}

/-- A text that is read is dialed as its target, and the channel is a new one. -/
theorem dial_eq (h : Target.parse text = .ok t) (env : Surroundings ω ς σ) (w : ω × σ) :
    (c.dial env text w).1 = (c.dialTarget env t w).1.map (fun _ => c.desk.channels.length) ∧
      (c.dial env text w).2.1.desk.channels =
        c.desk.channels ++ (c.dialTarget env t w).1.toOption.toList ∧
      (c.dial env text w).2.2 = (c.dialTarget env t w).2 := by
  simp only [dial, h]
  rcases c.dialTarget env t w with ⟨f | channel, v⟩
  · exact ⟨rfl, (List.append_nil _).symm, rfl⟩
  · exact ⟨rfl, rfl, rfl⟩

/-- A name that nobody wants yet is dialed as its target, and the channel is a new one. -/
theorem connect_eq (h : c.desk.IsNew name) (env : Surroundings ω ς σ) (w : ω × σ) :
    (c.connect env name w).1 =
        (c.dialTarget env (c.config.targetOf name) w).1.map (fun _ => c.desk.channels.length) ∧
      (c.connect env name w).2.1.desk.channels =
        c.desk.channels ++ (c.dialTarget env (c.config.targetOf name) w).1.toOption.toList ∧
      (c.connect env name w).2.2 = (c.dialTarget env (c.config.targetOf name) w).2 := by
  obtain ⟨e, he, hcaller, hchannels⟩ := Desk.advance_alone h.absent h.alone h.free
  have hwaits : e.result? c.desk.callers.length = none := by
    rw [Desk.result?, hcaller]
    rfl
  have hsame : ({ c with desk := e } : Context ς).dialTarget env (c.config.targetOf name) w =
      c.dialTarget env (c.config.targetOf name) w := rfl
  unfold connect
  simp only [he, hwaits, hsame]
  obtain ⟨hresult, hbehind⟩ :=
    Desk.result?_dialed hcaller (c.dialTarget env (c.config.targetOf name) w).1
  rw [hresult, hbehind, hchannels]
  exact ⟨rfl, rfl, trivial⟩

/-- Under settings that are accepted, the text of a service's target is read as that target exactly if
the scheme is made of letters, digits, `+`, `-` and `.`. Then a service that nobody wants yet is dialed
alike by its name and by that text: with one answer, one channel and one effect. Under any other scheme
the text is refused by its name, and nobody is asked, or it names another service. -/
theorem dialed_alike_iff (hvalid : c.config.validate = .ok ()) (hname : name ≠ "") :
    let target := c.config.targetOf name
    (Target.parse target.toText = .ok target ↔
      ∀ ch ∈ c.config.scheme.toList, Target.isSchemeChar ch = true) ∧
    ((∀ ch ∈ c.config.scheme.toList, Target.isSchemeChar ch = true) → c.desk.IsNew name →
      ∀ (env : Surroundings ω ς σ) (w : ω × σ),
        (c.dial env target.toText w).1 = (c.connect env name w).1 ∧
        (c.dial env target.toText w).2.1.desk.channels = (c.connect env name w).2.1.desk.channels ∧
        (c.dial env target.toText w).2.2 = (c.connect env name w).2.2) ∧
    (¬ (∀ ch ∈ c.config.scheme.toList, Target.isSchemeChar ch = true) →
      (∃ why, ∀ (env : Surroundings ω ς σ) (w : ω × σ), c.dial env target.toText w =
        (.error (.invalidTarget ("'" ++ target.toText ++ "': " ++ why)), c, w)) ∨
      ∃ other, Target.parse target.toText = .ok other ∧ other.service ≠ name) := by
  intro target
  have hscheme : c.config.scheme ≠ "" := by
    intro hempty
    rw [Config.validate, if_pos hempty] at hvalid
    cases hvalid
  have hread : Target.parse target.toText = .ok target ↔
      ∀ ch ∈ c.config.scheme.toList, Target.isSchemeChar ch = true := by
    have hsound : target.IsSound ↔ _ := Target.isSound_ofService
    rw [Target.parse_toText_iff, hsound, and_iff_right hscheme, and_iff_left hname]
  refine ⟨hread, ?_, ?_⟩
  · intro hchars hnew env w
    obtain ⟨hdial, hdialed, hasked⟩ := dial_eq (c := c) (hread.2 hchars) env w
    obtain ⟨hconnect, hconnected, hasked'⟩ := connect_eq hnew env w
    exact ⟨hdial.trans hconnect.symm, hdialed.trans hconnected.symm, hasked.trans hasked'.symm⟩
  · intro hchars
    rcases Target.parse_cases target.toText with ⟨other, hother⟩ | ⟨why, hwhy⟩
    · refine .inr ⟨other, hother, ?_⟩
      intro hservice
      cases Target.eq_ofService_of_parse hother hservice
      exact hchars (hread.1 hother)
    · refine .inl ⟨why, ?_⟩
      intro env w
      rw [dial, hwhy]

/-- A scheme with a blank is accepted, and the text of a service under it is refused; under a scheme
that holds a mark it names another service. -/
theorem blank_scheme_refused :
    let blank : Context Unit := { config := { scheme := "co rral" } }
    let marked : Context Unit := { config := { scheme := "corral://eu/x" } }
    let plain : Context Unit := { config := { scheme := "corral" } }
    (blank.config.validate = .ok () ∧
      Target.parse (blank.config.targetOf "orders").toText ≠ .ok (blank.config.targetOf "orders")) ∧
    (marked.config.validate = .ok () ∧
      Target.parse (marked.config.targetOf "orders").toText =
        .ok { scheme := "corral", authority := "eu", endpoint := "x:///orders" } ∧
      Target.parse (marked.config.targetOf "orders").toText ≠ .ok (marked.config.targetOf "orders")) ∧
    plain.config.validate = .ok () ∧
    Target.parse (plain.config.targetOf "orders").toText = .ok (plain.config.targetOf "orders") ∧
    ∀ (env : Surroundings Unit Unit Unit) (w : Unit × Unit),
      (plain.dial env "corral:///orders" w).1 = (plain.connect env "orders" w).1 := by
  intro blank marked plain
  have hname : "orders" ≠ "" := by decide
  have hblank := dialed_alike_iff (ω := Unit) (σ := Unit) (c := blank) rfl hname
  have hmarked := dialed_alike_iff (ω := Unit) (σ := Unit) (c := marked) rfl hname
  have hplain := dialed_alike_iff (ω := Unit) (σ := Unit) (c := plain) rfl hname
  have hchars : ∀ ch ∈ plain.config.scheme.toList, Target.isSchemeChar ch = true :=
    List.all_eq_true.1 (by decide +kernel)
  have hblanks : ¬ ∀ ch ∈ blank.config.scheme.toList, Target.isSchemeChar ch = true :=
    mt List.all_eq_true.2 (by decide +kernel)
  have hmarks : ¬ ∀ ch ∈ marked.config.scheme.toList, Target.isSchemeChar ch = true :=
    mt List.all_eq_true.2 (by decide +kernel)
  refine ⟨⟨rfl, mt hblank.1.1 hblanks⟩, ⟨rfl, by decide +kernel, mt hmarked.1.1 hmarks⟩, rfl,
    hplain.1.2 hchars, ?_⟩
  intro env w
  exact (hplain.2.1 hchars ⟨rfl, rfl, rfl⟩ env w).1

end Context
end Client
end Muster
