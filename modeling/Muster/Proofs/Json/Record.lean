/-
A record that has been written is read as it was. Its text is that of an object with its members in
the order of the writer; each is the member of a field that is not filled yet, whose reader takes
exactly the text of the value.
-/
import Muster.Json.Record
import Muster.Proofs.Json.Number

namespace Muster.Json

open Utf8 (Piece pieces)

/-! ## What a reader takes -/

/-- A reader takes a text off the front, whatever follows, if no number goes on there. -/
def Takes {α : Type} (reader : Reader α) (room : Nat) (text : List Char) (a : α) : Prop :=
  ∀ rest, Delimited rest → reader room (pieces text ++ rest) = .ok (a, rest)

/-- The text of a whole input is read to its end. -/
theorem Takes.readWhole {α : Type} {reader : Reader α} {text : List Char} {a : α}
    (h : Takes reader maxRoom text a) : readWhole reader (pieces text) = .ok a := by
  have hread := h [] delimited_nil
  rw [List.append_nil] at hread
  unfold Json.readWhole
  rw [hread]
  rfl

theorem takes_readText (room : Nat) (s : String) :
    Takes readText room (Value.text s).write s := by
  intro rest _
  show orMalformed (takeText (pieces (s.toList.flatMap escapeChar ++ ['"']) ++ rest)) = _
  rw [takeText_escaped]
  rfl

theorem takes_readVariant {α : Type} (room : Nat) {variants : List (String × α)} {name : String}
    {a : α} (h : variants.lookup name = some a) :
    Takes (readVariant variants) room (writeText name) a := by
  intro rest _
  show (orMalformed (takeText (pieces (name.toList.flatMap escapeChar ++ ['"']) ++ rest))).bind
    (fun r => (findVariant variants r.1).bind fun a => .ok (a, r.2)) = _
  rw [takeText_escaped]
  show (findVariant variants name).bind (fun a => .ok (a, rest)) = _
  unfold findVariant
  rw [h]
  rfl

theorem takes_readFlag (room : Nat) (b : Bool) : Takes readFlag room (Value.bool b).write b := by
  intro rest _
  cases b <;> rfl

theorem takes_readWord (room : Nat) (wanted : String) {limit n : Nat} (hlimit : limit < Nat.pow 2 64)
    (h : n ≤ limit) : Takes (readWord wanted limit) room (Digits.write n) n := by
  intro rest hrest
  have hfits : (Number.whole n).Fits := Nat.lt_of_le_of_lt h hlimit
  have htake : takeNumber (pieces (Digits.write n) ++ rest) = some (.whole n, rest) :=
    takeNumber_write hfits hrest
  obtain ⟨c, cs, hcs, hdigit⟩ := Digits.write_eq_cons n
  have hat : atNumber (pieces (Digits.write n) ++ rest) = true := by
    rw [hcs]
    show (c == '-' || (Digits.value? c).isSome) = true
    rw [hdigit, Bool.or_true]
  unfold readWord
  dsimp only
  rw [hcs, pieces_cons, List.cons_append] at htake hat ⊢
  rw [skipSpace_of_not (isSpace_of_number (.inr hdigit)), if_pos hat, htake]
  show (if n ≤ limit then _ else _) = _
  rw [if_pos h]

theorem takes_readWord64 (room : Nat) {n : Nat} (h : n < Nat.pow 2 64) :
    Takes readWord64 room (Digits.write n) n :=
  takes_readWord room "u64" (by decide) (Nat.le_sub_one_of_lt h)

theorem takes_readWord32 (room : Nat) {n : Nat} (h : n < Nat.pow 2 32) :
    Takes readWord32 room (Digits.write n) n :=
  takes_readWord room "u32" (by decide) (Nat.le_sub_one_of_lt h)

theorem takes_readOptional_null {α : Type} (reader : Reader α) (room : Nat) :
    Takes (readOptional reader) room Value.null.write none := by
  intro rest _
  rfl

/-- What does not begin like `null` is there. -/
theorem Takes.optional {α : Type} {reader : Reader α} {room : Nat} {c : Char} {cs : List Char} {a : α}
    (h : Takes reader room (c :: cs) a) (hspace : isSpace c = false) (hnull : c ≠ 'n') :
    Takes (readOptional reader) room (c :: cs) (some a) := by
  intro rest hrest
  have hread := h rest hrest
  rw [pieces_cons, List.cons_append] at hread ⊢
  unfold readOptional
  rw [skipSpace_of_not hspace]
  split
  · rename_i heq
    cases heq
    exact absurd rfl hnull
  · rw [hread]
    rfl

theorem takes_readOptional_text (room : Nat) (s : String) :
    Takes (readOptional readText) room (Value.text s).write (some s) :=
  (takes_readText room s).optional (by decide) (by decide)

theorem Takes.field {σ α : Type} {reader : Reader α} {room : Nat} {text : List Char} {a : α}
    (h : Takes reader room text a) (name : String) (presence : Presence) (get : σ → Option α)
    (set : α → σ → σ) : Takes (Field.of name presence reader get set).read room text (set a) := by
  intro rest hrest
  show (reader room (pieces text ++ rest)).bind (fun r => .ok (set r.1, r.2)) = _
  rw [h rest hrest]
  rfl

/-! ## Members -/

/-- What stands between a member and what is before it. -/
def separator (first : Bool) : List Char := if first then [] else [',']

theorem nextKey_text (first : Bool) (key : String) (rest : Cursor) :
    nextKey first (pieces (separator first ++ writeText key) ++ rest) = .ok (some key, rest) := by
  cases first
  all_goals
    show (orMalformed (takeText (pieces (key.toList.flatMap escapeChar ++ ['"']) ++ rest))).bind
      (fun r => .ok (some r.1, r.2)) = _
    rw [takeText_escaped]
    rfl

namespace Schema

variable {σ α : Type} {fields : List (Field σ)} {room : Nat}

/-- Members in turn fill fields of a record. -/
inductive Fills (fields : List (Field σ)) (room : Nat) : σ → List (String × Value) → σ → Prop
  | done (s : σ) : Fills fields room s [] s
  | member {s t : σ} {key : String} {value : Value} {members : List (String × Value)}
      {field : Field σ} {set : σ → σ} : fields.find? (·.name == key) = some field →
      field.filled s = false → Takes field.read room value.write set →
      Fills fields room (set s) members t → Fills fields room s ((key, value) :: members) t

/-- A member is read into its field, and the object goes on behind it. -/
theorem readObject_item {s : σ} {key : String} {field : Field σ}
    (hfield : fields.find? (·.name == key) = some field) (hnew : field.filled s = false)
    (first : Bool) (p : Piece) (fuel cs : Cursor) :
    readObject fields room (p :: fuel) first s
        (pieces (separator first ++ writeText key) ++ (.char ':' :: cs)) =
      (field.read room cs).bind fun r => readObject fields room fuel false (r.1 s) r.2 := by
  rw [readObject, nextKey_text]
  simp only [bind, Except.bind, hfield, hnew, Bool.false_eq_true, if_false]
  rfl

theorem readObject_member {s : σ} {key : String} {text : List Char} {field : Field σ}
    {set : σ → σ} (hfield : fields.find? (·.name == key) = some field)
    (hnew : field.filled s = false) (htakes : Takes field.read room text set) (first : Bool)
    (p : Piece) (fuel : Cursor) {rest : Cursor} (hrest : Delimited rest) :
    readObject fields room (p :: fuel) first s
        (pieces (separator first ++ writeText key) ++ (.char ':' :: (pieces text ++ rest))) =
      readObject fields room fuel false (set s) rest := by
  rw [readObject_item hfield hnew, htakes rest hrest]
  rfl

theorem delimited_writeMembers (members : List (String × Value)) (rest : Cursor) :
    Delimited (pieces (writeMembers members) ++ rest) := by
  cases members with
  | nil => exact delimited_brace rest
  | cons m members => exact delimited_comma _

/-- The text of the members after the first one. -/
theorem writeMembers_cons (key : String) (value : Value) (members : List (String × Value))
    (rest : Cursor) : pieces (writeMembers ((key, value) :: members)) ++ rest =
      pieces (separator false ++ writeText key) ++
        (.char ':' :: (pieces value.write ++ (pieces (writeMembers members) ++ rest))) := by
  simp only [writeMembers, separator, pieces_append, pieces_cons, List.append_assoc,
    List.cons_append, List.nil_append, Bool.false_eq_true, if_false]

/-- The text behind the brace of an object. -/
theorem write_object_cons (key : String) (value : Value) (members : List (String × Value))
    (rest : Cursor) : pieces ((Value.object ((key, value) :: members)).write.drop 1) ++ rest =
      pieces (separator true ++ writeText key) ++
        (.char ':' :: (pieces value.write ++ (pieces (writeMembers members) ++ rest))) := by
  simp only [Value.write, separator, pieces_append, pieces_cons, List.append_assoc,
    List.cons_append, List.nil_append, List.drop_succ_cons, List.drop_zero, if_true]

theorem readObject_members {s t : σ} {members : List (String × Value)}
    (h : Fills fields room s members t) {fuel : Cursor} (hfuel : members.length < fuel.length)
    (rest : Cursor) :
    readObject fields room fuel false s (pieces (writeMembers members) ++ rest) = .ok (t, rest) := by
  induction h generalizing fuel with
  | done s =>
    obtain ⟨p, fuel, rfl⟩ := List.exists_cons_of_length_pos hfuel
    rfl
  | @member s t key value members field set hfield hnew htakes _ ih =>
    obtain ⟨p, fuel, rfl⟩ :=
      List.exists_cons_of_length_pos (Nat.lt_of_le_of_lt (Nat.zero_le _) hfuel)
    rw [writeMembers_cons,
      readObject_member hfield hnew htakes false p fuel (delimited_writeMembers members rest),
      ih (Nat.lt_of_succ_lt_succ hfuel)]

theorem length_le_writeMembers (members : List (String × Value)) :
    members.length ≤ (writeMembers members).length := by
  induction members with
  | nil => exact Nat.zero_le _
  | cons m members ih =>
    simp only [writeMembers, List.length_cons, List.length_append]
    omega

/-- A record is read from the text of the object that holds its members. -/
theorem takes_object {schema : Schema σ α} {s : σ} {members : List (String × Value)} {a : α}
    (h : Fills schema.fields room schema.start members s)
    (hmissing : checkMissing s schema.fields = .ok ()) (hfinish : schema.finish s = some a) :
    Takes schema.read (room + 1) (Value.object members).write a := by
  intro rest _
  -- behind the brace, a first member stands without a comma
  have hend : readObject schema.fields room
      (bound (pieces ((Value.object members).write.drop 1) ++ rest)) true schema.start
      (pieces ((Value.object members).write.drop 1) ++ rest) = .ok (s, rest) := by
    cases h with
    | done => rfl
    | @member _ _ key value members field set hfield hnew htakes hrest =>
      rw [write_object_cons, bound,
        readObject_member hfield hnew htakes true _ _ (delimited_writeMembers members rest)]
      refine readObject_members hrest ?_ rest
      have := length_le_writeMembers members
      simp only [pieces, List.length_append, List.length_cons, List.length_map]
      omega
  have hopen : pieces (Value.object members).write ++ rest =
      .char '\x7b' :: (pieces ((Value.object members).write.drop 1) ++ rest) := by
    cases members <;> simp only [Value.write] <;> rfl
  rw [hopen]
  show (readObject schema.fields room _ true schema.start _).bind _ = _
  rw [hend]
  show (checkMissing s schema.fields).bind _ = _
  rw [hmissing]
  show (orMalformed (schema.finish s)).bind _ = _
  rw [hfinish]
  rfl

end Schema
end Muster.Json
