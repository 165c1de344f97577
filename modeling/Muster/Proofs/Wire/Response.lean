/-
What a response means on the other side of a connection. Its frame is read as the same response but
for one thing: a result of `null` cannot be told from no result. So the caller learns what the
response says unless it is a success whose result is `null`.
-/
import Muster.Proofs.Json.Value
import Muster.Proofs.Text.Utf8
import Muster.Wire.Response

namespace Muster.Wire.Response

open Json (Value Takes takes_readOptional_text takes_readFlag takes_readWord64 takes_readOptional_null
  takes_readValue takes_readVariant)

/-- A result as the other side of a connection has it: one of `null` is none. -/
def carriedResult : Option Value → Option Value
  | some .null => none
  | result => result

/-- A response as the other side of a connection has it. -/
def carried (r : Response) : Response := { r with result := carriedResult r.result }

theorem lookup_name (c : Code) : Code.all.lookup c.name = some c := by
  cases c <;> decide

/-! ## Members -/

variable {room : Nat}

theorem carriedResult_some {v : Value} (h : v ≠ .null) : carriedResult (some v) = some v := by
  cases v with
  | null => exact absurd rfl h
  | bool | number | text | array | object => rfl

theorem takes_result {result : Option Value} (h : ∀ v, result = some v → v.Readable room) :
    Takes (Json.readOptional Json.readValue) room (result.getD .null).write (carriedResult result) := by
  cases result with
  | none => exact takes_readOptional_null Json.readValue room
  | some v =>
    have hv := h v rfl
    by_cases hnull : v = .null
    · subst hnull
      exact takes_readOptional_null Json.readValue room
    · obtain ⟨c, cs, hcs, hopen, hn⟩ := hv.write_eq_cons
      have htakes : Takes Json.readValue room (c :: cs) v := hcs ▸ takes_readValue hv
      rw [carriedResult_some hnull, Option.getD_some, hcs]
      exact htakes.optional hopen.space fun hc => hnull (hn hc)

theorem takes_error (room : Nat) (error : Option String) :
    Takes (Json.readOptional Json.readText) room
      (match error with
        | some e => Value.text e
        | none => .null).write error := by
  cases error with
  | none => exact takes_readOptional_null Json.readText room
  | some e => exact takes_readOptional_text room e

/-- The members of a response fill its fields one after another. -/
theorem takes_toJson {r : Response} (hid : r.id < Nat.pow 2 64)
    (hresult : ∀ v, r.result = some v → v.Readable room) :
    Takes schema.read (room + 1) r.toJson.write r.carried := by
  obtain ⟨id, result, error, success, code⟩ := r
  have htext (c : Code) : Takes (Json.readOptional (Json.readVariant Code.all)) room
      (Value.text c.name).write (some c) :=
    (takes_readVariant room (lookup_name c)).optional (by decide) (by decide)
  refine Json.Schema.takes_object
    (s := ⟨some id, some (carriedResult result), some error, some success,
      code.map some⟩) ?_ rfl (by cases code <;> rfl)
  refine .member rfl rfl ((takes_readWord64 room hid).field _ _ _ _) ?_
  refine .member rfl rfl ((takes_result hresult).field _ _ _ _) ?_
  refine .member rfl rfl ((takes_error room error).field _ _ _ _) ?_
  refine .member rfl rfl ((takes_readFlag room success).field _ _ _ _) ?_
  cases code with
  | none => exact .done _
  | some c => exact .member rfl rfl ((htext c).field _ _ _ _) (.done _)

/-! ## Frames -/

/-- The frame of a response is read as the response that is carried. -/
theorem decode_encode {r : Response} (hid : r.id < Nat.pow 2 64)
    (hresult : ∀ v, r.result = some v → v.Readable (Json.maxRoom - 1)) :
    decode r.encode = .ok r.carried := by
  unfold decode encode
  rw [Utf8.read_encode, (takes_toJson hid hresult : Takes schema.read Json.maxRoom _ _).readWhole]

/-- The result of a success that the other side does not have. -/
def Lost (r : Response) : Prop := r.success = true ∧ r.result = some .null

theorem outcome_carried_of_lost {r : Response} (h : r.Lost) :
    r.carried.outcome = .error (.invalidResponse "success without result") ∧
      r.outcome = .ok .null := by
  obtain ⟨id, result, error, success, code⟩ := r
  obtain ⟨rfl, rfl⟩ := h
  exact ⟨rfl, rfl⟩

theorem outcome_carried {r : Response} (h : ¬ r.Lost) : r.carried.outcome = r.outcome := by
  obtain ⟨id, result, error, success, code⟩ := r
  cases success with
  | false => rfl
  | true =>
    match result with
    | none => rfl
    | some .null => exact absurd ⟨rfl, rfl⟩ h
    | some (.bool _) | some (.number _) | some (.text _) | some (.array _) | some (.object _) => rfl

/-- The other side reads a response under the same id, and its caller learns what the response says,
unless it is a success with `null` as the result. -/
theorem outcome_kept_iff {r : Response} (hid : r.id < Nat.pow 2 64)
    (hresult : ∀ v, r.result = some v → v.Readable (Json.maxRoom - 1)) :
    ∃ r', decode r.encode = .ok r' ∧ r'.id = r.id ∧
      (r'.outcome = r.outcome ↔ ¬ (r.success = true ∧ r.result = some .null)) := by
  refine ⟨r.carried, decode_encode hid hresult, rfl, fun hsame hlost => ?_, outcome_carried⟩
  obtain ⟨hcarried, houtcome⟩ := outcome_carried_of_lost hlost
  rw [hcarried, houtcome] at hsame
  cases hsame

/-- A handler that answers with `null` has its caller told that the response is malformed. -/
theorem null_lost :
    ∃ r', decode (ofResult 1 .null).encode = .ok r' ∧ r'.id = 1 ∧
      (ofResult 1 .null).outcome = .ok .null ∧ r'.outcome ≠ .ok .null := by
  have hresult : ∀ v, (ofResult 1 .null).result = some v → v.Readable (Json.maxRoom - 1) := by
    rintro v ⟨⟩
    exact .null
  obtain ⟨r', hread, hid, hkept⟩ := outcome_kept_iff (r := ofResult 1 .null) (by decide) hresult
  exact ⟨r', hread, hid, rfl, fun h => hkept.1 h ⟨rfl, rfl⟩⟩

end Muster.Wire.Response
