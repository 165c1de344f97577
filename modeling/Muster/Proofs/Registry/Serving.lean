/-
Whoever serves an instance leaves the registry as it has found it. Where its key is taken, it is refused
and changes nothing, so that the record that stands there stays. Otherwise its record is there as long as
it serves, and gone when it has left; and at every other key there is always what the others alone would
have put there, whenever the signal comes and whatever they do at other keys. Main statement:
`left_as_found`.
-/
import Muster.Proofs.Registry.Effect
import Muster.Registry.Duty

namespace Muster.Registry

/-- What is registered at a post. -/
def Post.registration (post : Post) : Registration :=
  .ofInstance post.ip post.port post.drawn .rpc post.version post.now

/-- Where it is registered. -/
def Post.key (post : Post) : String := post.service.key post.registration.sequence

def Happening.isGo : Happening → Bool
  | .go => true
  | _ => false

namespace Duty

variable {post : Post} {s base : Store} {r : Registration} {d : Duty Store}
  {hs : List Happening}

/-! ## Arriving and leaving -/

/-- What one who serves does when it arrives. -/
theorem beginServing_cases (post : Post) (s : Store) :
    ∃ registered t, beginServing memory post.service post.ip post.port post.drawn post.version post.now s =
        (registered, t) ∧
      (s.contents post.key = none ∧ registered = .ok post.registration ∧
          t.contents = Function.update s.contents post.key (some post.registration.record.encode) ∨
        s.contents post.key ≠ none ∧ registered = .error (.conflict post.key) ∧ t = s) := by
  have hvalid : post.registration.record.validate = .ok () := Record.validate_ofInstance ..
  have hbegin : beginServing memory post.service post.ip post.port post.drawn post.version post.now s =
      ((writeRecord memory post.service post.registration.sequence post.registration.record s).1.map
          fun () => post.registration,
        (writeRecord memory post.service post.registration.sequence post.registration.record s).2) := by
    unfold beginServing register Post.registration Registration.ofInstance
    dsimp only
  have hwrite : writeRecord memory post.service post.registration.sequence post.registration.record s =
      memory.create post.key post.registration.record.encode s := by
    rw [writeRecord, hvalid]
    rfl
  rw [hwrite] at hbegin
  cases hf : Store.find? post.key s.entries with
  | none =>
    have hfree : s.contents post.key = none := contents_eq_none hf
    obtain ⟨t, ht, -⟩ := Store.create_free hf post.registration.record.encode
    have hcreate : memory.create post.key post.registration.record.encode s = (.ok (), t) := by
      simp only [memory, ht]
    have hcontents := contents_create s post.key post.registration.record.encode
    rw [hcreate, hfree, Option.none_or] at hcontents
    rw [hcreate] at hbegin
    exact ⟨.ok post.registration, t, hbegin, .inl ⟨hfree, rfl, hcontents⟩⟩
  | some e =>
    have hheld : s.contents post.key ≠ none := by simp [contents_eq_some hf]
    have hcreate : memory.create post.key post.registration.record.encode s =
        (.error (.conflict post.key), s) := by
      simp only [memory, Store.create_taken hf]
    rw [hcreate] at hbegin
    exact ⟨.error (.conflict post.key), s, hbegin, .inr ⟨hheld, rfl, rfl⟩⟩

theorem contents_endServing (post : Post) (s : Store) :
    (endServing memory post.service post.registration s).contents =
      Function.update s.contents post.key none :=
  contents_clearRecord post.service post.registration.sequence s

/-- What stands at the key of a record is read back as that record. -/
theorem readRecord_of_contents {svc : Service} {q : String} {r : Record} (hr : r.validate = .ok ())
    (h : s.contents (svc.key q) = some r.encode) : (readRecord memory svc q s).1 = .ok r := by
  obtain ⟨e, he, hvalue⟩ := Option.map_eq_some_iff.1 h
  show (s.get (svc.key q)).bind (fun e => Record.decode e.value) = _
  rw [Store.get_held he]
  show Record.decode e.value = _
  rw [hvalue, Record.decode_encode hr]

/-! ## One step after another -/

section Run

variable {σ : Type} (b : Backend σ) (post : Post) (d : Duty σ)

theorem run_cons (h : Happening) (hs : List Happening) :
    run b post (h :: hs) d = run b post hs (step b post d h) := rfl

theorem run_append (hs more : List Happening) :
    run b post (hs ++ more) d = run b post more (run b post hs d) := List.foldl_append

end Run

/-- How far one who serves has come, and with what keys, beside what the others alone would have made of
them. -/
inductive Accounts (post : Post) (base : Store) : Stage → Store → Prop
  | arriving : Accounts post base .arriving base
  | serving {keys : Store} : base.contents post.key = none →
      keys.contents = Function.update base.contents post.key (some post.registration.record.encode) →
      Accounts post base (.serving post.registration) keys
  | leaving {keys : Store} : base.contents post.key = none →
      keys.contents = Function.update base.contents post.key (some post.registration.record.encode) →
      Accounts post base (.leaving post.registration) keys
  | done {keys : Store} : base.contents post.key = none → keys.contents = base.contents →
      Accounts post base (.done (.ok post.registration)) keys
  | refused : base.contents post.key ≠ none →
      Accounts post base (.done (.error (.conflict post.key))) base

section Accounts

variable {stage : Stage} {keys : Store} {f : Fault}

theorem Accounts.of_arriving (ha : Accounts post base .arriving keys) : keys = base := by
  cases ha
  rfl

theorem Accounts.of_refused (ha : Accounts post base (.done (.error f)) keys) :
    f = .conflict post.key ∧ base.contents post.key ≠ none ∧ keys = base := by
  cases ha with
  | refused hheld => exact ⟨rfl, hheld, rfl⟩

theorem Accounts.of_done (ha : Accounts post base (.done (.ok r)) keys) :
    r = post.registration ∧ base.contents post.key = none ∧ keys.contents = base.contents := by
  cases ha with
  | done hfree hkeys => exact ⟨rfl, hfree, hkeys⟩

theorem Accounts.of_serving (ha : Accounts post base stage keys)
    (h : stage = .serving r ∨ stage = .leaving r) :
    r = post.registration ∧ base.contents post.key = none ∧
      keys.contents = Function.update base.contents post.key (some r.record.encode) := by
  rcases h with rfl | rfl
  · cases ha with
    | serving hfree hkeys => exact ⟨rfl, hfree, hkeys⟩
  · cases ha with
    | leaving hfree hkeys => exact ⟨rfl, hfree, hkeys⟩

theorem Accounts.go (ha : Accounts post base stage keys) (shut : Bool) :
    Accounts post base (step memory post ⟨keys, stage, shut⟩ .go).stage
      (step memory post ⟨keys, stage, shut⟩ .go).keys := by
  cases ha with
  | arriving =>
    obtain ⟨registered, t, hbegin, ⟨hfree, rfl, ht⟩ | ⟨hheld, rfl, rfl⟩⟩ := beginServing_cases post base
    · simp only [step, hbegin]
      exact .serving hfree ht
    · simp only [step, hbegin]
      exact .refused hheld
  | serving hfree hkeys =>
    cases shut with
    | false => exact .serving hfree hkeys
    | true => exact .leaving hfree hkeys
  | leaving hfree hkeys =>
    -- what it removes is its own record, for nobody else was there before it
    apply Accounts.done hfree
    calc (endServing memory post.service post.registration keys).contents
        = Function.update keys.contents post.key none := contents_endServing post keys
      _ = base.contents := by rw [hkeys, Function.update_idem, ← hfree, Function.update_eq_self]
  | done hfree hkeys => exact .done hfree hkeys
  | refused hheld => exact .refused hheld

theorem Accounts.other {c : Command} (hc : ¬ c.Aims post.key)
    (ha : Accounts post base stage keys) :
    Accounts post (c.run memory base).2 stage (c.run memory keys).2 := by
  have hsame : (c.run memory base).2.contents post.key = base.contents post.key := by
    rw [contents_run, aimed_of_not_aims hc]
  have hserved (hkeys : keys.contents =
      Function.update base.contents post.key (some post.registration.record.encode)) :
      (c.run memory keys).2.contents = Function.update (c.run memory base).2.contents post.key
        (some post.registration.record.encode) := by
    rw [contents_run, contents_run, hkeys, aimed_update hc]
  cases ha with
  | arriving => exact .arriving
  | serving hfree hkeys => exact .serving (hsame.trans hfree) (hserved hkeys)
  | leaving hfree hkeys => exact .leaving (hsame.trans hfree) (hserved hkeys)
  | done hfree hkeys =>
    apply Accounts.done (hsame.trans hfree)
    rw [contents_run, contents_run, hkeys]
  | refused hheld =>
    apply Accounts.refused
    rwa [hsame]

theorem Accounts.run (hothers : ∀ c ∈ others hs, ¬ c.Aims post.key)
    (ha : Accounts post base d.stage d.keys) : Accounts post (after memory (others hs) base)
      (run memory post hs d).stage (run memory post hs d).keys := by
  induction hs generalizing d base with
  | nil => exact ha
  | cons h hs ih =>
    rw [run_cons]
    cases h with
    | go => exact ih hothers (ha.go d.shut)
    | signal => exact ih hothers ha
    | other c =>
      obtain ⟨hc, hrest⟩ := List.forall_mem_cons.1 hothers
      exact ih hrest (ha.other hc)

end Accounts

/-! ## Coming to an end -/

/-- How many more steps of its own one who serves has, once the signal has come. -/
def stepsLeft : Stage → Nat
  | .arriving => 3
  | .serving _ => 2
  | .leaving _ => 1
  | .done _ => 0

/-- What a step of its own comes to. -/
theorem step_go_cases {σ : Type} (b : Backend σ) (post : Post) (d : Duty σ) :
    (step b post d .go).shut = d.shut ∧ (step b post d .go).stage ≠ .arriving ∧
      (d.shut = true → stepsLeft (step b post d .go).stage ≤ stepsLeft d.stage - 1) := by
  obtain ⟨keys, stage, shut⟩ := d
  cases stage with
  | arriving =>
    rw [step]
    rcases beginServing b post.service post.ip post.port post.drawn post.version post.now keys with
      ⟨f | r, t⟩
    · exact ⟨rfl, nofun, fun _ => Nat.zero_le _⟩
    · exact ⟨rfl, nofun, fun _ => Nat.le_refl _⟩
  | serving r =>
    cases shut with
    | false => exact ⟨rfl, nofun, nofun⟩
    | true => exact ⟨rfl, nofun, fun _ => Nat.le_refl _⟩
  | leaving r => exact ⟨rfl, nofun, fun _ => Nat.le_refl _⟩
  | done result => exact ⟨rfl, nofun, fun _ => Nat.le_refl _⟩

theorem run_ne_arriving {σ : Type} (b : Backend σ) {d : Duty σ}
    (hd : d.stage ≠ .arriving ∨ .go ∈ hs) : (run b post hs d).stage ≠ .arriving := by
  induction hs generalizing d with
  | nil => simpa [run] using hd
  | cons h hs ih =>
    apply ih
    cases h with
    | go => exact .inl (step_go_cases b post d).2.1
    | signal => simpa [step] using hd
    | other c => simpa [step] using hd

theorem shut_run {σ : Type} (b : Backend σ) {d : Duty σ} (hd : d.shut = true ∨ .signal ∈ hs) :
    (run b post hs d).shut = true := by
  induction hs generalizing d with
  | nil => simpa [run] using hd
  | cons h hs ih =>
    apply ih
    cases h with
    | go => simpa [(step_go_cases b post d).1] using hd
    | signal => exact .inl rfl
    | other c => simpa [step] using hd

/-- After the signal, each step of its own brings one who serves closer to its end. -/
theorem stepsLeft_run {σ : Type} (b : Backend σ) (post : Post) {d : Duty σ} (hd : d.shut = true)
    (hs : List Happening) : stepsLeft (run b post hs d).stage ≤ stepsLeft d.stage - hs.countP Happening.isGo := by
  induction hs generalizing d with
  | nil => exact Nat.le_refl _
  | cons h hs ih =>
    cases h with
    | go =>
      obtain ⟨hkept, -, hless⟩ := step_go_cases b post d
      have hrest := ih (hkept.trans hd)
      have hfirst := hless hd
      rw [List.countP_cons_of_pos rfl]
      show stepsLeft (run b post hs _).stage ≤ _
      omega
    | signal =>
      rw [List.countP_cons_of_neg Bool.false_ne_true]
      exact ih rfl
    | other c =>
      rw [List.countP_cons_of_neg Bool.false_ne_true]
      exact ih hd

theorem done_of_stepsLeft {stage : Stage} (h : stepsLeft stage = 0) : ∃ result, stage = .done result := by
  cases stage with
  | done result => exact ⟨result, rfl⟩
  | arriving | serving | leaving => cases h

/-- Where the others are busy only while one serves, it does what serving is. -/
theorem run_serving {σ : Type} (b : Backend σ) (post : Post) (cs : List Command) {s t : σ}
    (hbegin : beginServing b post.service post.ip post.port post.drawn post.version post.now s =
      (.ok r, t)) :
    let ended := serving b post.service post.ip post.port post.drawn post.version post.now (after b cs) s
    run b post ([.go] ++ cs.map .other ++ [.signal, .go, .go]) { keys := s } =
      { keys := ended.2, stage := .done ended.1, shut := true } := by
  have hmeanwhile (d : Duty σ) : run b post (cs.map .other) d = { d with keys := after b cs d.keys } := by
    induction cs generalizing d with
    | nil => rfl
    | cons c cs ih => exact ih _
  have hcome : run b post [.go] { keys := s } = { keys := t, stage := .serving r } := by
    simp only [run_cons, step, hbegin]
    rfl
  intro ended
  have hended : ended = (.ok r, endServing b post.service r (after b cs t)) := by
    simp only [ended, serving, hbegin]
  rw [hended, run_append, run_append, hcome, hmeanwhile]
  rfl

/-! ## As it was found -/

/-- Whatever the others do at other keys and whenever the signal comes: one whose key is taken is refused
with a conflict and has changed nothing; while any other one serves, its record is there and can be read;
and when it has left, that record is gone. At all other keys there is always what the others alone would
have put there. It is refused exactly if its key is taken, and three steps after the signal it is done. -/
theorem left_as_found (post : Post) (s : Store) (hs : List Happening)
    (hothers : ∀ c ∈ others hs, ¬ c.Aims post.key) :
    let base := after memory (others hs) s
    let d := run memory post hs { keys := s }
    (d.stage = .arriving → d.keys = base) ∧
    (∀ f, d.stage = .done (.error f) →
      f = .conflict post.key ∧ s.contents post.key ≠ none ∧ d.keys = base) ∧
    (∀ r, d.stage = .serving r ∨ d.stage = .leaving r →
      r = post.registration ∧ s.contents post.key = none ∧
        (readRecord memory post.service r.sequence d.keys).1 = .ok r.record ∧
        ∀ key, key ≠ post.key → d.keys.contents key = base.contents key) ∧
    (∀ r, d.stage = .done (.ok r) →
      r = post.registration ∧ s.contents post.key = none ∧ d.keys.contents post.key = none ∧
        ∀ key, d.keys.contents key = base.contents key) ∧
    (.go ∈ hs → (d.stage = .done (.error (.conflict post.key)) ↔ s.contents post.key ≠ none)) ∧
    (.signal ∈ hs → ∀ more, 3 ≤ more.countP Happening.isGo →
      ∃ result, (run memory post more d).stage = .done result) := by
  intro base d
  have hbase : base.contents post.key = s.contents post.key := contents_after hothers s
  have ha : Accounts post base d.stage d.keys := Accounts.run hothers .arriving
  refine ⟨?_, ?_, ?_, ?_, ?_, ?_⟩
  · intro h
    rw [h] at ha
    exact ha.of_arriving
  · intro f h
    rw [h] at ha
    rw [← hbase]
    exact ha.of_refused
  · intro r h
    obtain ⟨rfl, hfree, hkeys⟩ := ha.of_serving h
    refine ⟨rfl, hbase ▸ hfree, ?_, ?_⟩
    · apply readRecord_of_contents (Record.validate_ofInstance ..)
      rw [hkeys]
      exact Function.update_self ..
    · intro key hkey
      rw [hkeys, Function.update_of_ne hkey]
  · intro r h
    rw [h] at ha
    obtain ⟨rfl, hfree, hkeys⟩ := ha.of_done
    refine ⟨rfl, hbase ▸ hfree, ?_, congrFun hkeys⟩
    rw [hkeys, hfree]
  · intro hgo
    rw [← hbase]
    constructor
    · intro h
      rw [h] at ha
      exact ha.of_refused.2.1
    · intro hheld
      cases h : d.stage with
      | arriving => exact absurd h (run_ne_arriving memory (.inr hgo))
      | serving r => exact absurd (ha.of_serving (.inl h)).2.1 hheld
      | leaving r => exact absurd (ha.of_serving (.inr h)).2.1 hheld
      | done result =>
        rw [h] at ha
        cases result with
        | ok r => exact absurd ha.of_done.2.1 hheld
        | error f => rw [ha.of_refused.1]
  · intro hsignal more hmore
    apply done_of_stepsLeft
    have hshut : d.shut = true := shut_run memory (.inr hsignal)
    have hleft := stepsLeft_run memory post hshut more
    have hmost : stepsLeft d.stage ≤ 3 := by cases d.stage <;> simp [stepsLeft]
    omega

/-- An instance beside somebody who writes a note and clears another sequence; and one whose key is taken
all the time. -/
theorem instance_beside_others :
    let post : Post := ⟨{ name := "orders" }, .v4 1, 80, 0, "1.0", "today"⟩
    let come : List Happening := [.go, .other (.put "/notes" "x"), .signal]
    let leave : List Happening := [.go, .other (.clear { name := "orders" } "7"), .go, .go]
    let taken : Store := (memory.create post.key "mine" (.empty 9)).2
    (∀ c ∈ others (come ++ leave), ¬ c.Aims post.key) ∧
    (run memory post (come ++ leave) { keys := .empty 9 }).stage = .done (.ok post.registration) ∧
    (run memory post (come ++ leave) { keys := .empty 9 }).keys.contents post.key = none ∧
    (run memory post (come ++ leave) { keys := .empty 9 }).keys.contents "/notes" = some "x" ∧
    (run memory post (come ++ leave) { keys := taken }).stage =
      .done (.error (.conflict post.key)) ∧
    (run memory post (come ++ leave) { keys := taken }).keys =
      after memory (others (come ++ leave)) taken := by
  intro post come leave taken
  have hnotes : "/notes" ≠ post.key := by decide +kernel
  have hseven : post.service.key "7" ≠ post.key := by decide +kernel
  have hput : ¬ (Command.put "/notes" "x").Aims post.key := by
    rintro ⟨value, h⟩
    exact hnotes (congrArg Prod.fst (Option.some.inj h))
  have hclear : ¬ (Command.clear { name := "orders" } "7").Aims post.key := by
    rintro ⟨value, h⟩
    exact hseven (congrArg Prod.fst (Option.some.inj h))
  have hcome : ∀ c ∈ others come, ¬ c.Aims post.key := List.forall_mem_singleton.2 hput
  have hothers : ∀ c ∈ others (come ++ leave), ¬ c.Aims post.key :=
    List.forall_mem_cons.2 ⟨hput, List.forall_mem_singleton.2 hclear⟩
  obtain ⟨-, hnever, -, hfree, -, -⟩ := left_as_found post (.empty 9) (come ++ leave) hothers
  obtain ⟨-, hrefused, -, -, hconflict, -⟩ := left_as_found post taken (come ++ leave) hothers
  have hdone : (run memory post (come ++ leave) { keys := .empty 9 }).stage =
      .done (.ok post.registration) := by
    obtain ⟨-, -, -, -, -, hends⟩ := left_as_found post (.empty 9) come hcome
    have happened : run memory post (come ++ leave) { keys := .empty 9 } =
        run memory post leave (run memory post come { keys := .empty 9 }) := List.foldl_append
    have hempty : (Store.empty 9).contents post.key = none := rfl
    obtain ⟨result, hresult⟩ := hends (by simp [come]) leave (by decide)
    rw [← happened] at hresult
    cases result with
    | error f => exact absurd hempty (hnever f hresult).2.1
    | ok r => rw [hresult, (hfree r hresult).1]
  obtain ⟨-, -, hgone, hkept⟩ := hfree _ hdone
  have hheld : taken.contents post.key ≠ none := by decide +kernel
  have htaken := (hconflict (by simp [come])).2 hheld
  refine ⟨hothers, hdone, hgone, ?_, htaken, (hrefused _ htaken).2.2⟩
  rw [hkept]
  decide +kernel

end Duty

end Muster.Registry
