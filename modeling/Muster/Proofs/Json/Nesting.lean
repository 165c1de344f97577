/-
How deep a value is nested, and what becomes of one that is nested deeper than there is room for. Its
text is refused where the first array or object opens that finds no room; all that stands before it is
taken, and what follows does not matter. The same holds of a record with such a value in a member.
-/
import Muster.Proofs.Json.Value

namespace Muster.Json

open Utf8 (Piece pieces)

/-! ## Depth -/

mutual
/-- How many arrays and objects of a value stand inside one another. -/
def Value.depth : Value → Nat
  | .array items => depthOfItems items + 1
  | .object members => depthOfMembers members + 1
  | .null | .bool _ | .number _ | .text _ => 0

/-- The depth of the deepest item. -/
def depthOfItems : List Value → Nat
  | [] => 0
  | v :: vs => max v.depth (depthOfItems vs)

def depthOfMembers : List (String × Value) → Nat
  | [] => 0
  | (_, v) :: ms => max v.depth (depthOfMembers ms)
end

variable {room n : Nat}

theorem depthOfItems_le_iff {items : List Value} :
    depthOfItems items ≤ n ↔ ∀ v ∈ items, v.depth ≤ n := by
  induction items with
  | nil => simp [depthOfItems]
  | cons v items ih => rw [depthOfItems, max_le_iff, ih, List.forall_mem_cons]

theorem depthOfMembers_le_iff {members : List (String × Value)} :
    depthOfMembers members ≤ n ↔ ∀ m ∈ members, m.2.depth ≤ n := by
  induction members with
  | nil => simp [depthOfMembers]
  | cons m members ih => rw [depthOfMembers, max_le_iff, ih, List.forall_mem_cons]

namespace Value.Readable

variable {v : Value}

theorem depth_le (h : v.Readable room) : v.depth ≤ room := by
  induction h with
  | null | bool | number | text => exact Nat.zero_le _
  | array _ ih => exact Nat.succ_le_succ (depthOfItems_le_iff.2 ih)
  | object _ _ ih => exact Nat.succ_le_succ (depthOfMembers_le_iff.2 ih)

/-- Room is needed for what stands inside one another, and for nothing else. -/
theorem of_depth_le (h : v.Readable room) (hn : v.depth ≤ n) : v.Readable n := by
  induction h generalizing n with
  | null => exact .null
  | bool b => exact .bool b
  | number hfits => exact .number hfits
  | text s => exact .text s
  | array _ ih =>
    obtain ⟨n, rfl⟩ := Nat.exists_eq_add_of_lt (Nat.lt_of_lt_of_le (Nat.succ_pos _) hn)
    rw [Nat.zero_add] at hn ⊢
    have hitems := depthOfItems_le_iff.1 (Nat.le_of_succ_le_succ hn)
    exact .array fun v hv => ih v hv (hitems v hv)
  | object hordered _ ih =>
    obtain ⟨n, rfl⟩ := Nat.exists_eq_add_of_lt (Nat.lt_of_lt_of_le (Nat.succ_pos _) hn)
    rw [Nat.zero_add] at hn ⊢
    have hmembers := depthOfMembers_le_iff.1 (Nat.le_of_succ_le_succ hn)
    exact .object hordered fun m hm => ih m hm (hmembers m hm)

end Value.Readable

/-! ## What a reader refuses -/

/-- A reader refuses a text as malformed, whatever follows. -/
def Refuses {α : Type} (reader : Reader α) (room : Nat) (text : List Char) : Prop :=
  ∀ rest, reader room (pieces text ++ rest) = .error .malformed

section Readers

variable {α : Type} {reader : Reader α} {text : List Char}

theorem Refuses.readWhole (h : Refuses reader maxRoom text) :
    readWhole reader (pieces text) = .error .malformed := by
  have hread := h []
  rw [List.append_nil] at hread
  unfold Json.readWhole
  rw [hread]
  rfl

theorem Refuses.optional {c : Char} {cs : List Char} (h : Refuses reader room (c :: cs))
    (hspace : isSpace c = false) (hnull : c ≠ 'n') : Refuses (readOptional reader) room (c :: cs) := by
  intro rest
  have hread := h rest
  rw [pieces_cons, List.cons_append] at hread ⊢
  unfold readOptional
  rw [skipSpace_of_not hspace]
  split
  · rename_i heq
    cases heq
    exact absurd rfl hnull
  · rw [hread]
    rfl

theorem Refuses.field {σ : Type} (h : Refuses reader room text) (name : String) (presence : Presence)
    (get : σ → Option α) (set : α → σ → σ) :
    Refuses (Field.of name presence reader get set).read room text := by
  intro rest
  show (reader room (pieces text ++ rest)).bind (fun r => .ok (set r.1, r.2)) = _
  rw [h rest]
  rfl

end Readers

/-! ## Containers -/

section Containers

variable {v : Value} {key : String}

/-- The items up to one that is refused are taken. -/
theorem readItems_refused {items : List Value} (hitems : ∀ w ∈ v :: items, w.Readable n)
    (heach : ∀ w ∈ v :: items, Takes readValue room w.write w ∨ Refuses readValue room w.write)
    (hdeep : ∃ w ∈ v :: items, Refuses readValue room w.write) (first : Bool) (fuel rest : Cursor) :
    readItems (readValue room) fuel first
        (pieces (separator first ++ v.write) ++ (pieces (writeItems items) ++ rest)) =
      .error .malformed := by
  induction fuel generalizing v items first with
  | nil => rfl
  | cons p fuel ih =>
    rw [readItems_item (hitems v List.mem_cons_self).opens]
    by_cases hv : Refuses readValue room v.write
    · rw [hv]
      rfl
    · have htakes := (heach v List.mem_cons_self).resolve_right hv
      have hlater := ((List.exists_mem_cons_iff _ _ _).1 hdeep).resolve_left hv
      rw [htakes _ (delimited_writeItems items rest)]
      cases items with
      | nil =>
        obtain ⟨w, hw, -⟩ := hlater
        cases hw
      | cons w items =>
        have hrest := ih (fun u hu => hitems u (List.mem_cons_of_mem v hu))
          (fun u hu => heach u (List.mem_cons_of_mem v hu)) hlater false
        rw [writeItems_cons]
        show (readItems (readValue room) fuel false _).bind _ = _
        rw [hrest]
        rfl

theorem readMembers_refused {members : List (String × Value)}
    (heach : ∀ m ∈ (key, v) :: members,
      Takes readValue room m.2.write m.2 ∨ Refuses readValue room m.2.write)
    (hdeep : ∃ m ∈ (key, v) :: members, Refuses readValue room m.2.write) (first : Bool)
    (fuel rest : Cursor) :
    readMembers (readValue room) fuel first (pieces (separator first ++ writeText key) ++
        (.char ':' :: (pieces v.write ++ (pieces (writeMembers members) ++ rest)))) =
      .error .malformed := by
  induction fuel generalizing key v members first with
  | nil => rfl
  | cons p fuel ih =>
    rw [readMembers_item]
    by_cases hv : Refuses readValue room v.write
    · rw [hv]
      rfl
    · have htakes := (heach (key, v) List.mem_cons_self).resolve_right hv
      have hlater := ((List.exists_mem_cons_iff _ _ _).1 hdeep).resolve_left hv
      rw [htakes _ (Schema.delimited_writeMembers members rest)]
      cases members with
      | nil =>
        obtain ⟨m, hm, -⟩ := hlater
        cases hm
      | cons m members =>
        have hrest := ih (fun u hu => heach u (List.mem_cons_of_mem _ hu)) hlater false
        rw [Schema.writeMembers_cons]
        show (readMembers (readValue room) fuel false _).bind _ = _
        rw [hrest]
        rfl

end Containers

/-! ## Values -/

theorem takes_or_refuses {v : Value} (h : v.Readable n)
    (hdeep : room < v.depth → Refuses readValue room v.write) :
    Takes readValue room v.write v ∨ Refuses readValue room v.write := by
  rcases Nat.lt_or_ge room v.depth with hlt | hle
  · exact .inr (hdeep hlt)
  · exact .inl (takes_readValue (h.of_depth_le hle))

/-- A value that is nested deeper than there is room for is refused. -/
theorem refuses_readValue {v : Value} (h : v.Readable n) (hdeep : room < v.depth) :
    Refuses readValue room v.write := by
  induction h generalizing room with
  | null | bool | number | text => exact absurd hdeep (Nat.not_lt_zero room)
  | @array n items hitems ih =>
    intro rest
    cases room with
    | zero => cases items <;> rfl
    | succ room =>
      have heach : ∀ v ∈ items, Takes readValue room v.write v ∨ Refuses readValue room v.write :=
        fun v hv => takes_or_refuses (hitems v hv) (ih v hv)
      have hexists : ∃ v ∈ items, Refuses readValue room v.write := by
        have hitem := mt depthOfItems_le_iff.2 (Nat.not_le.2 (Nat.lt_of_succ_lt_succ hdeep))
        push Not at hitem
        obtain ⟨v, hv, hlt⟩ := hitem
        exact ⟨v, hv, ih v hv hlt⟩
      cases items with
      | nil =>
        obtain ⟨v, hv, -⟩ := hexists
        cases hv
      | cons v items =>
        show (readItems (readValue room)
          (bound (pieces ((Value.array (v :: items)).write.drop 1) ++ rest)) true
          (pieces ((Value.array (v :: items)).write.drop 1) ++ rest)).bind _ = _
        rw [write_array_cons, readItems_refused hitems heach hexists]
        rfl
  | @object n members _ hmembers ih =>
    intro rest
    cases room with
    | zero => cases members <;> rfl
    | succ room =>
      have heach : ∀ m ∈ members,
          Takes readValue room m.2.write m.2 ∨ Refuses readValue room m.2.write :=
        fun m hm => takes_or_refuses (hmembers m hm) (ih m hm)
      have hexists : ∃ m ∈ members, Refuses readValue room m.2.write := by
        have hmember := mt depthOfMembers_le_iff.2 (Nat.not_le.2 (Nat.lt_of_succ_lt_succ hdeep))
        push Not at hmember
        obtain ⟨m, hm, hlt⟩ := hmember
        exact ⟨m, hm, ih m hm hlt⟩
      cases members with
      | nil =>
        obtain ⟨m, hm, -⟩ := hexists
        cases hm
      | cons m members =>
        obtain ⟨key, v⟩ := m
        show (readMembers (readValue room)
          (bound (pieces ((Value.object ((key, v) :: members)).write.drop 1) ++ rest)) true
          (pieces ((Value.object ((key, v) :: members)).write.drop 1) ++ rest)).bind _ = _
        rw [Schema.write_object_cons, readMembers_refused heach hexists]
        rfl

/-! ## Records -/

namespace Schema

variable {σ α : Type} {fields : List (Field σ)}

/-- Members in turn fill fields of a record, up to one whose value is refused. -/
inductive Breaks (fields : List (Field σ)) (room : Nat) : σ → List (String × Value) → Prop
  | here {s : σ} {key : String} {value : Value} {members : List (String × Value)} {field : Field σ} :
      fields.find? (·.name == key) = some field → field.filled s = false →
      Refuses field.read room value.write → Breaks fields room s ((key, value) :: members)
  | later {s : σ} {key : String} {value : Value} {members : List (String × Value)} {field : Field σ}
      {set : σ → σ} : fields.find? (·.name == key) = some field → field.filled s = false →
      Takes field.read room value.write set → Breaks fields room (set s) members →
      Breaks fields room s ((key, value) :: members)

theorem Breaks.readObject {s : σ} {key : String} {value : Value} {members : List (String × Value)}
    (h : Breaks fields room s ((key, value) :: members)) (first : Bool) (fuel rest : Cursor) :
    Schema.readObject fields room fuel first s (pieces (separator first ++ writeText key) ++
        (.char ':' :: (pieces value.write ++ (pieces (writeMembers members) ++ rest)))) =
      .error .malformed := by
  induction fuel generalizing s key value members first with
  | nil => rfl
  | cons p fuel ih =>
    cases h with
    | here hfield hnew hrefuses =>
      rw [readObject_item hfield hnew, hrefuses]
      rfl
    | later hfield hnew htakes h =>
      rw [readObject_member hfield hnew htakes first p fuel (delimited_writeMembers _ rest)]
      cases members with
      | nil => cases h
      | cons m members => rw [writeMembers_cons, ih h]

/-- A record with a value that is refused is refused. -/
theorem refuses_object {schema : Schema σ α} {members : List (String × Value)}
    (h : Breaks schema.fields room schema.start members) :
    Refuses schema.read (room + 1) (Value.object members).write := by
  intro rest
  obtain ⟨⟨key, value⟩, members, rfl⟩ : ∃ m ms, members = m :: ms := by
    cases h <;> exact ⟨_, _, rfl⟩
  show (Schema.readObject schema.fields room
    (bound (pieces ((Value.object ((key, value) :: members)).write.drop 1) ++ rest)) true schema.start
    (pieces ((Value.object ((key, value) :: members)).write.drop 1) ++ rest)).bind _ = _
  rw [write_object_cons, h.readObject]
  rfl

end Schema

end Muster.Json
