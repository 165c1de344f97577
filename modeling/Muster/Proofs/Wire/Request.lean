/-
A request on the other side of a connection is the request that was sent. And a request that has been
read from any text, in whichever form and with whatever spacing, is the same when it is sent on.
-/
import Muster.Proofs.Json.Reading
import Muster.Proofs.Text.Utf8
import Muster.Wire.Request

namespace Muster.Wire.Request

open Json (Value Takes Cursor Schema.Keeps takes_readText takes_readValue takes_readWord64
  takes_readOptional_null)

variable {room : Nat}

/-! ## What is sent -/

/-- A request whose whole numbers fit their 64 bits and whose arguments find room in its object. -/
structure Sendable (room : Nat) (r : Request) : Prop where
  id : r.id < Nat.pow 2 64
  args : r.args.Readable room
  timeoutMs : ∀ ms, r.timeoutMs = some ms → ms < Nat.pow 2 64

theorem takes_timeoutMs (room : Nat) {ms : Nat} (h : ms < Nat.pow 2 64) :
    Takes (Json.readOptional Json.readWord64) room (Digits.write ms) (some ms) := by
  obtain ⟨c, cs, hcs, hdigit⟩ := Digits.write_eq_cons ms
  have htakes : Takes Json.readWord64 room (c :: cs) ms := hcs ▸ takes_readWord64 room h
  rw [hcs]
  exact htakes.optional (Json.isSpace_of_number (.inr hdigit))
    (Json.ne_of_digit hdigit (by decide))

/-- The members of a request fill its fields one after another. -/
theorem takes_toJson {r : Request} (h : r.Sendable room) :
    Takes schema.read (room + 1) r.toJson.write r := by
  obtain ⟨id, method, args, timeoutMs⟩ := r
  obtain ⟨hid, hargs, htimeout⟩ := h
  refine Json.Schema.takes_object (s := ⟨some id, some method, some args, timeoutMs.map some⟩) ?_
    (by cases timeoutMs <;> rfl) (by cases timeoutMs <;> rfl)
  refine .member rfl rfl ((takes_readWord64 room hid).field _ _ _ _) ?_
  refine .member rfl rfl ((takes_readText room method).field _ _ _ _) ?_
  refine .member rfl rfl ((takes_readValue hargs).field _ _ _ _) ?_
  cases timeoutMs with
  | none => exact .done _
  | some ms =>
    exact .member rfl rfl ((takes_timeoutMs room (htimeout ms rfl)).field _ _ _ _) (.done _)

theorem decode_encode {r : Request} (h : r.Sendable (Json.maxRoom - 1)) : decode r.encode = .ok r := by
  unfold decode encode
  rw [Utf8.read_encode, (takes_toJson h : Takes schema.read Json.maxRoom _ _).readWhole]

/-! ## What has been read -/

/-- What has been read of a request so far could be sent on, its numbers being whole. -/
structure Draft.Sendable (room : Nat) (d : Draft) : Prop where
  id : ∀ id, d.id = some id → id < Nat.pow 2 64
  args : ∀ v, d.args = some v → v.IsWhole → v.Readable room
  timeoutMs : ∀ ms, d.timeoutMs = some (some ms) → ms < Nat.pow 2 64

theorem readWord64_lt {n : Nat} {cs rest : Cursor} (h : Json.readWord64 room cs = .ok (n, rest)) :
    n < Nat.pow 2 64 :=
  Nat.lt_of_le_of_lt (Json.le_of_readWord h) (by decide)

theorem sendable_start (room : Nat) : Draft.Sendable room {} := by
  constructor <;> rintro _ ⟨⟩

/-- Each field keeps what has been read in shape. -/
theorem fields_keep : ∀ f ∈ schema.fields, Schema.Keeps (Draft.Sendable room) room f := by
  intro f hf cs set rest hfield d hd
  obtain ⟨hid, hargs, htimeout⟩ := hd
  simp only [schema, List.mem_cons, List.not_mem_nil, or_false] at hf
  rcases hf with rfl | rfl | rfl | rfl
  · obtain ⟨id, hread, rfl⟩ := Json.Field.read_of hfield
    refine ⟨?_, hargs, htimeout⟩
    rintro _ ⟨⟩
    exact readWord64_lt hread
  · obtain ⟨method, -, rfl⟩ := Json.Field.read_of hfield
    exact ⟨hid, hargs, htimeout⟩
  · obtain ⟨args, hread, rfl⟩ := Json.Field.read_of hfield
    refine ⟨hid, ?_, htimeout⟩
    rintro _ ⟨⟩
    exact Json.readable_of_readValue hread
  · obtain ⟨timeout, hread, rfl⟩ := Json.Field.read_of hfield
    refine ⟨hid, hargs, ?_⟩
    rintro ms ⟨⟩
    obtain ⟨cs, hword⟩ := Json.of_readOptional_some hread
    exact readWord64_lt hword

/-- What a draft that is complete makes a request of. -/
theorem Draft.finish_sendable {d : Draft} {r : Request} (hd : d.Sendable room)
    (h : d.finish = some r) (hargs : r.args.IsWhole) : r.Sendable room := by
  simp only [Draft.finish, Option.bind_eq_bind, Option.bind_eq_some_iff, Option.some.injEq] at h
  obtain ⟨id, hid, method, -, args, hdargs, rfl⟩ := h
  refine ⟨hd.id id hid, hd.args args hdargs hargs, fun ms hms => hd.timeoutMs ms ?_⟩
  cases htimeout : d.timeoutMs with
  | none => rw [htimeout] at hms; cases hms
  | some timeout => rw [htimeout] at hms; exact congrArg some hms

theorem readWhole_ok {α : Type} {reader : Json.Reader α} {cs : Cursor} {a : α}
    (h : Json.readWhole reader cs = .ok a) : ∃ rest, reader Json.maxRoom cs = .ok (a, rest) := by
  obtain ⟨⟨b, rest⟩, hread, h⟩ := Json.bind_ok h
  dsimp only at h
  split at h
  · cases h
    exact ⟨rest, hread⟩
  · cases h

/-- A request that has been read, with whole numbers only in its arguments, can be sent on. -/
theorem sendable_of_decode {frame : List UInt8} {r : Request} (h : decode frame = .ok r)
    (hargs : r.args.IsWhole) : r.Sendable (Json.maxRoom - 1) := by
  unfold decode at h
  split at h
  · rename_i hread
    cases h
    obtain ⟨rest, hread⟩ := readWhole_ok hread
    obtain ⟨d, hd, hfinish⟩ := Json.Schema.read_keeps
      (sendable_start (Json.maxRoom - 1)) fields_keep hread
    exact Draft.finish_sendable hd hfinish hargs
  · cases h

/-- A request that is sent is received as it is: any method, any deadline and arguments of any kind, as
deep as `126` arrays and objects inside one another. And whatever frame a request has been read from,
it is received as it is when it is sent on, if the numbers in its arguments are whole. -/
theorem sent_and_received :
    (∀ r : Request, r.id < Nat.pow 2 64 → (∀ ms, r.timeoutMs = some ms → ms < Nat.pow 2 64) →
      r.args.Readable 126 → decode r.encode = .ok r) ∧
    ∀ (frame : List UInt8) (r : Request), decode frame = .ok r → r.args.IsWhole →
      decode r.encode = .ok r :=
  ⟨fun _ hid htimeout hargs => decode_encode ⟨hid, hargs, htimeout⟩,
    fun _ _ h hargs => decode_encode (sendable_of_decode h hargs)⟩

/-- A request as another peer may spell it: the members in an order of its own, one that is not known,
blanks, an escape, and a key of the arguments twice. -/
def spelled : List UInt8 :=
  Utf8.encode ("\x7b\"args\": \x7b\"b\":-1, \"a\":[null], \"b\":2\x7d, \"trace\":1.5e3, ".toList
    ++ "\"method\":\"p\\u0069ng\",\"id\":7\x7d ".toList)

/-- The request that it spells. -/
def ping : Request :=
  { id := 7, method := "ping", args := .object [("a", .array [.null]), ("b", .number (.whole 2))] }

theorem decode_spelled : decode spelled = .ok ping := by
  unfold decode spelled
  rw [Utf8.read_encode]
  rfl

theorem ping_sent_on :
    decode spelled = .ok ping ∧ decode ping.encode = .ok ping ∧
    decode (encode { ping with id := Nat.pow 2 64 - 1, timeoutMs := some 250 }) =
      .ok { ping with id := Nat.pow 2 64 - 1, timeoutMs := some 250 } := by
  have hwhole : ping.args.IsWhole := by
    refine .object (List.forall_mem_cons.2 ⟨.array ?_, List.forall_mem_cons.2 ⟨.number trivial, nofun⟩⟩)
    exact List.forall_mem_cons.2 ⟨.null, nofun⟩
  have hreadable : ping.args.Readable 126 := by
    refine .object (by decide) (List.forall_mem_cons.2 ⟨.array ?_,
      List.forall_mem_cons.2 ⟨.number (show 2 < Nat.pow 2 64 by decide), nofun⟩⟩)
    exact List.forall_mem_cons.2 ⟨.null, nofun⟩
  refine ⟨decode_spelled, sent_and_received.2 spelled ping decode_spelled hwhole,
    sent_and_received.1 _ (by decide) ?_ hreadable⟩
  rintro ms ⟨⟩
  decide

end Muster.Wire.Request
