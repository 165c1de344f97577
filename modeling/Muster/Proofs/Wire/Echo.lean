/-
The echo of a request at its caller. The service puts the arguments into an object of its own, so they
stand one deeper in its answer than in the request; the reader of the answer has no more room than the
reader of the request had. What is nested as deep as a request may be is accepted, and the answer that
holds it cannot be read. Main statement: `echo_received_iff`.
-/
import Muster.Proofs.Json.Nesting
import Muster.Proofs.Wire.Request
import Muster.Proofs.Wire.Response
import Muster.Wire.Echo

namespace Muster.Wire

open Json (Value Refuses takes_readWord64)

variable {room n : Nat}

namespace Response

/-- A response whose result is nested too deep is refused. -/
theorem refuses_toJson {r : Response} {v : Value} (hid : r.id < Nat.pow 2 64)
    (hresult : r.result = some v) (hreadable : v.Readable n) (hdeep : room < v.depth) :
    Refuses schema.read (room + 1) r.toJson.write := by
  obtain ⟨id, result, error, success, code⟩ := r
  cases hresult
  have hrefuses : Refuses (Json.readOptional Json.readValue) room v.write := by
    have hvalue := Json.refuses_readValue hreadable hdeep
    obtain ⟨c, cs, hcs, hopen, hnull⟩ := hreadable.write_eq_cons
    rw [hcs] at hvalue ⊢
    apply hvalue.optional hopen.space
    intro hc
    rw [hnull hc] at hdeep
    exact Nat.not_lt_zero room hdeep
  apply Json.Schema.refuses_object
  refine .later rfl rfl ((takes_readWord64 room hid).field _ _ _ _) ?_
  exact .here rfl rfl (hrefuses.field _ _ _ _)

theorem decode_encode_deep {r : Response} {v : Value} (hid : r.id < Nat.pow 2 64)
    (hresult : r.result = some v) (hreadable : v.Readable n) (hdeep : Json.maxRoom - 1 < v.depth) :
    decode r.encode = .error (.json .malformed) := by
  have hrefuses : Refuses schema.read Json.maxRoom r.toJson.write :=
    refuses_toJson hid hresult hreadable hdeep
  unfold decode encode
  rw [Utf8.read_encode, hrefuses.readWhole]

end Response

namespace Echo

variable {frame : List UInt8} {r : Request}

theorem depth_echoed (name : String) (r : Request) : (echoed name r).depth = r.args.depth + 1 := by
  simp [echoed, Value.depth, Json.depthOfMembers]

theorem readable_echoed (name : String) (h : r.args.Readable n) : (echoed name r).Readable (n + 1) := by
  have hkeys : ["args", "method", "served_by"].Pairwise (· < ·) := by decide
  apply Value.Readable.object
  · exact List.pairwise_map.1 hkeys
  · intro m hm
    simp only [List.mem_cons, List.not_mem_nil, or_false] at hm
    rcases hm with rfl | rfl | rfl
    · exact h
    · exact .text r.method
    · exact .text name

/-- Through a gate that admits everything, a request is answered with its echo. -/
theorem answer_disabled (name : String) (shut : Bool) (h : Request.decode frame = .ok r) :
    (Server.answer (handle name shut) frame .disabled).1 = respond name r := by
  unfold Server.answer
  rw [h]
  rfl

/-- The arguments of a request that is accepted, its numbers being whole, are nested at most `126` deep.
The caller reads the answer under the id of the request, with the method and the arguments as they were,
exactly if they are not nested `126` deep; if they are, the answer is malformed to its reader. -/
theorem echo_received_iff (h : Request.decode frame = .ok r) (hwhole : r.args.IsWhole) (name : String)
    (shut : Bool) :
    let answer := (Server.answer (handle name shut) frame .disabled).1
    r.args.depth ≤ 126 ∧
    ((∃ a, Response.decode answer.encode = .ok a ∧ a.id = r.id ∧ a.outcome =
        .ok (.object [("args", r.args), ("method", .text r.method), ("served_by", .text name)])) ↔
      r.args.depth ≠ 126) ∧
    (r.args.depth = 126 → Response.decode answer.encode = .error (.json .malformed)) := by
  intro answer
  have hanswer : answer = respond name r := answer_disabled name shut h
  have hsendable := Request.sendable_of_decode h hwhole
  have hdepth : r.args.depth ≤ 126 := hsendable.args.depth_le
  have hlost : r.args.depth = 126 → Response.decode answer.encode = .error (.json .malformed) := by
    intro hdeep
    rw [hanswer]
    apply Response.decode_encode_deep hsendable.id rfl (readable_echoed name hsendable.args)
    rw [depth_echoed, hdeep]
    decide
  refine ⟨hdepth, ⟨?_, ?_⟩, hlost⟩
  · rintro ⟨a, hread, -⟩ hdeep
    rw [hlost hdeep] at hread
    cases hread
  · intro hshallow
    have hargs : r.args.Readable 125 := hsendable.args.of_depth_le (by omega)
    refine ⟨respond name r, ?_, rfl, rfl⟩
    rw [hanswer]
    apply Response.decode_encode hsendable.id
    rintro _ ⟨⟩
    exact readable_echoed name hargs

/-- So many arrays inside one another. -/
def nested : Nat → Value
  | 0 => .null
  | depth + 1 => .array [nested depth]

theorem depth_nested (depth : Nat) : (nested depth).depth = depth := by
  induction depth with
  | zero => rfl
  | succ depth ih => simp [nested, Value.depth, Json.depthOfItems, ih]

theorem readable_nested (depth : Nat) : (nested depth).Readable depth := by
  induction depth with
  | zero => exact .null
  | succ depth ih =>
    apply Value.Readable.array
    intro v hv
    rw [List.mem_singleton.1 hv]
    exact ih

theorem isWhole_nested (depth : Nat) : (nested depth).IsWhole := by
  induction depth with
  | zero => exact .null
  | succ depth ih =>
    apply Value.IsWhole.array
    intro v hv
    rw [List.mem_singleton.1 hv]
    exact ih

/-- The deepest request there is: it is accepted, and nobody can read the answer. -/
theorem deepest_echo_lost :
    let r : Request := { id := 5, method := "m", args := nested 126 }
    Request.decode r.encode = .ok r ∧
      Response.decode (Server.answer (handle "e" false) r.encode .disabled).1.encode =
        .error (.json .malformed) := by
  intro r
  have hread : Request.decode r.encode = .ok r :=
    Request.decode_encode ⟨by decide, readable_nested 126, nofun⟩
  exact ⟨hread, (echo_received_iff hread (isWhole_nested 126) "e" false).2.2 (depth_nested 126)⟩

end Echo

end Muster.Wire
