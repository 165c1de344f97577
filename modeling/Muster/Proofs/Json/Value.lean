/-
A value that has been written is read as it was: its whole numbers to the last digit, its members in
their order, and as deep as there is room for. The text of a value never begins with a blank, nor
with the bracket that would end an array.
-/
import Mathlib.Data.List.Forall2
import Mathlib.Data.String.Basic
import Muster.Proofs.Json.Record

namespace Muster.Json

open Utf8 (Piece pieces)

/-- A value that keeps what it is on its way through text: its numbers are whole and fit their 64
bits, the members of its objects stand in the order of their keys, each key once, and there is room
for the arrays and objects that stand inside one another. -/
inductive Value.Readable : (room : Nat) → Value → Prop
  | null {room : Nat} : Readable room .null
  | bool {room : Nat} (b : Bool) : Readable room (.bool b)
  | number {room : Nat} {n : Number} : n.Fits → Readable room (.number n)
  | text {room : Nat} (s : String) : Readable room (.text s)
  | array {room : Nat} {items : List Value} : (∀ v ∈ items, Readable room v) →
      Readable (room + 1) (.array items)
  | object {room : Nat} {members : List (String × Value)} :
      members.Pairwise (fun m n => m.1 < n.1) → (∀ m ∈ members, Readable room m.2) →
      Readable (room + 1) (.object members)

/-! ## How a text begins -/

/-- A character with which a value begins, and which means nothing else before one. -/
structure Opening (c : Char) : Prop where
  space : isSpace c = false
  bracket : c ≠ ']'

/-- The text of a value begins with a character that says of what kind it is. -/
theorem Value.Readable.write_eq_cons {room : Nat} {v : Value} (h : v.Readable room) :
    ∃ c cs, v.write = c :: cs ∧ Opening c ∧ (c = 'n' → v = .null) := by
  cases h with
  | null => exact ⟨'n', _, rfl, ⟨by decide, by decide⟩, fun _ => rfl⟩
  | bool b =>
    cases b <;> exact ⟨_, _, rfl, ⟨by decide, by decide⟩, fun h => absurd h (by decide)⟩
  | number hn =>
    obtain ⟨c, cs, hcs, hc⟩ := Number.write_eq_cons hn
    exact ⟨c, cs, hcs, ⟨isSpace_of_number hc, ne_of_number hc (by decide) (by decide)⟩,
      fun h => absurd h (ne_of_number hc (by decide) (by decide))⟩
  | text s => exact ⟨'"', _, rfl, ⟨by decide, by decide⟩, fun h => absurd h (by decide)⟩
  | @array _ items =>
    cases items <;> exact ⟨'[', _, rfl, ⟨by decide, by decide⟩, fun h => absurd h (by decide)⟩
  | @object _ members =>
    cases members <;>
      exact ⟨'\x7b', _, rfl, ⟨by decide, by decide⟩, fun h => absurd h (by decide)⟩

/-! ## Containers -/

theorem delimited_writeItems (items : List Value) (rest : Cursor) :
    Delimited (pieces (writeItems items) ++ rest) := by
  cases items with
  | nil => exact delimited_bracket rest
  | cons v items => exact delimited_comma _

variable {room : Nat}

/-- The text of the items after the first one. -/
theorem writeItems_cons (v : Value) (items : List Value) (rest : Cursor) :
    pieces (writeItems (v :: items)) ++ rest =
      pieces (separator false ++ v.write) ++ (pieces (writeItems items) ++ rest) := by
  simp only [writeItems, separator, pieces_append, pieces_cons, List.append_assoc, List.cons_append,
    List.nil_append, Bool.false_eq_true, if_false]

/-- The text behind the bracket of an array. -/
theorem write_array_cons (v : Value) (items : List Value) (rest : Cursor) :
    pieces ((Value.array (v :: items)).write.drop 1) ++ rest =
      pieces (separator true ++ v.write) ++ (pieces (writeItems items) ++ rest) := by
  simp only [Value.write, separator, pieces_append, List.append_assoc, List.cons_append,
    List.nil_append, List.drop_succ_cons, List.drop_zero, if_true]

/-- A text begins like a value. -/
def Opens (text : List Char) : Prop := ∃ c cs, text = c :: cs ∧ Opening c

theorem Value.Readable.opens {n : Nat} {v : Value} (h : v.Readable n) : Opens v.write := by
  obtain ⟨c, cs, hcs, hopen, -⟩ := h.write_eq_cons
  exact ⟨c, cs, hcs, hopen⟩

section Items

variable {α : Type} {reader : Reader α}

/-- An item is read, and the array goes on behind it. -/
theorem readItems_item {text : List Char} (hopens : Opens text) (first : Bool) (p : Piece)
    (fuel rest : Cursor) :
    readItems (reader room) (p :: fuel) first (pieces (separator first ++ text) ++ rest) =
      (reader room (pieces text ++ rest)).bind fun r =>
        (readItems (reader room) fuel false r.2).bind fun q => .ok (r.1 :: q.1, q.2) := by
  cases first with
  | false => rfl
  | true =>
    obtain ⟨c, cs, rfl, hopen⟩ := hopens
    rw [separator, if_pos rfl, List.nil_append, pieces_cons, List.cons_append, readItems,
      skipSpace_of_not hopen.space]
    split
    · rename_i heq
      cases heq
      exact absurd rfl hopen.bracket
    · rfl

/-- A value is written as an item that a reader takes. -/
structure Item (reader : Reader α) (room : Nat) (v : Value) (a : α) : Prop where
  opens : Opens v.write
  takes : Takes reader room v.write a

theorem readItems_write {items : List Value} {as : List α}
    (h : List.Forall₂ (Item reader room) items as) {fuel : Cursor}
    (hfuel : items.length < fuel.length) (rest : Cursor) :
    readItems (reader room) fuel false (pieces (writeItems items) ++ rest) = .ok (as, rest) := by
  induction h generalizing fuel with
  | nil =>
    obtain ⟨p, fuel, rfl⟩ := List.exists_cons_of_length_pos hfuel
    rfl
  | @cons v a items as hitem _ ih =>
    obtain ⟨p, fuel, rfl⟩ :=
      List.exists_cons_of_length_pos (Nat.lt_of_le_of_lt (Nat.zero_le _) hfuel)
    have hrest := ih (Nat.lt_of_succ_lt_succ hfuel)
    rw [writeItems_cons, readItems_item hitem.opens,
      hitem.takes _ (delimited_writeItems items rest)]
    show (readItems (reader room) fuel false _).bind _ = _
    rw [hrest]
    rfl

theorem length_le_writeItems (items : List Value) : items.length ≤ (writeItems items).length := by
  induction items with
  | nil => exact Nat.zero_le _
  | cons v items ih =>
    simp only [writeItems, List.length_cons, List.length_append]
    omega

/-- All items of an array are read, from behind its bracket on. -/
theorem readItems_array {items : List Value} {as : List α}
    (h : List.Forall₂ (Item reader room) items as) (rest : Cursor) :
    readItems (reader room) (bound (pieces ((Value.array items).write.drop 1) ++ rest)) true
      (pieces ((Value.array items).write.drop 1) ++ rest) = .ok (as, rest) := by
  cases h with
  | nil => rfl
  | @cons v a items as hitem hitems =>
    have hfuel : items.length < (pieces ((Value.array (v :: items)).write.drop 1) ++ rest).length := by
      have hlen := length_le_writeItems items
      obtain ⟨c, cs, hcs, -⟩ := hitem.opens
      rw [write_array_cons, hcs]
      simp only [pieces, List.length_append, List.length_map, List.length_cons]
      omega
    have hrest := readItems_write hitems hfuel rest
    rw [bound, write_array_cons, readItems_item hitem.opens,
      hitem.takes _ (delimited_writeItems items rest)]
    rw [write_array_cons] at hrest
    show (readItems (reader room) _ false _).bind _ = _
    rw [hrest]
    rfl

end Items

/-- A member is read, and the object goes on behind it. -/
theorem readMembers_item (key : String) (first : Bool) (p : Piece) (fuel cs : Cursor) :
    readMembers (readValue room) (p :: fuel) first
        (pieces (separator first ++ writeText key) ++ (.char ':' :: cs)) =
      (readValue room cs).bind fun r =>
        (readMembers (readValue room) fuel false r.2).bind fun q => .ok ((key, r.1) :: q.1, q.2) := by
  rw [readMembers, nextKey_text]
  rfl

theorem readMembers_member {key : String} {v : Value} (hv : Takes readValue room v.write v)
    (first : Bool) (p : Piece) (fuel : Cursor) {rest : Cursor} (hrest : Delimited rest) :
    readMembers (readValue room) (p :: fuel) first
        (pieces (separator first ++ writeText key) ++ (.char ':' :: (pieces v.write ++ rest))) =
      (readMembers (readValue room) fuel false rest).bind fun r => .ok ((key, v) :: r.1, r.2) := by
  rw [readMembers_item, hv rest hrest]
  rfl

theorem readMembers_write {members : List (String × Value)}
    (hmembers : ∀ m ∈ members, Takes readValue room m.2.write m.2) {fuel : Cursor}
    (hfuel : members.length < fuel.length) (rest : Cursor) :
    readMembers (readValue room) fuel false (pieces (writeMembers members) ++ rest) =
      .ok (members, rest) := by
  induction members generalizing fuel with
  | nil =>
    obtain ⟨p, fuel, rfl⟩ := List.exists_cons_of_length_pos hfuel
    rfl
  | cons m members ih =>
    obtain ⟨key, v⟩ := m
    obtain ⟨p, fuel, rfl⟩ :=
      List.exists_cons_of_length_pos (Nat.lt_of_le_of_lt (Nat.zero_le _) hfuel)
    have hrest := ih (fun w hw => hmembers w (List.mem_cons_of_mem _ hw)) (Nat.lt_of_succ_lt_succ hfuel)
    rw [Schema.writeMembers_cons,
      readMembers_member (hmembers _ List.mem_cons_self) false p fuel
        (Schema.delimited_writeMembers members rest), hrest]
    rfl

/-! ## Objects -/

/-- A member whose key comes behind all others takes its place at the end. -/
theorem insertMember_last {key : String} {v : Value} {members : List (String × Value)}
    (h : ∀ m ∈ members, m.1 < key) : Value.insertMember key v members = members ++ [(key, v)] := by
  induction members with
  | nil => rfl
  | cons m members ih =>
    have hm : m.1 < key := h m List.mem_cons_self
    rw [Value.insertMember, if_neg (lt_asymm hm), if_neg (ne_of_gt hm),
      ih fun n hn => h n (List.mem_cons_of_mem m hn)]
    rfl

theorem foldl_insertMember (members before : List (String × Value))
    (h : (before ++ members).Pairwise fun m n => m.1 < n.1) :
    members.foldl (fun acc m => Value.insertMember m.1 m.2 acc) before = before ++ members := by
  induction members generalizing before with
  | nil => exact (List.append_nil before).symm
  | cons m members ih =>
    have hlast : ∀ n ∈ before, n.1 < m.1 := fun n hn =>
      (List.pairwise_append.1 h).2.2 n hn m List.mem_cons_self
    rw [List.foldl_cons, insertMember_last hlast, ih]
    · rw [List.append_assoc, List.singleton_append]
    · rwa [List.append_assoc, List.singleton_append]

/-- Members in the order of their keys stay as they are. -/
theorem ofMembers_ordered {members : List (String × Value)}
    (h : members.Pairwise fun m n => m.1 < n.1) : Value.ofMembers members = .object members := by
  unfold Value.ofMembers
  rw [foldl_insertMember members [] h, List.nil_append]

/-! ## Values -/

theorem takes_number {n : Number} (hn : n.Fits) : Takes readValue room n.write (.number n) := by
  intro rest hrest
  have htake := takeNumber_write hn hrest
  obtain ⟨c, cs, hcs, hc⟩ := Number.write_eq_cons hn
  rw [hcs, pieces_cons, List.cons_append] at htake ⊢
  rw [readValue.eq_def, skipSpace_of_not (isSpace_of_number hc)]
  split
  -- the six characters that begin something else are none of a number
  case h_7 => rw [htake]; rfl
  all_goals
    rename_i heq
    cases heq
    exact absurd hc (by decide)

/-- A value that has been written is read as it was. -/
theorem takes_readValue {v : Value} (h : v.Readable room) : Takes readValue room v.write v := by
  induction h with
  | null => intro rest _; rw [readValue.eq_def]; rfl
  | bool b => intro rest _; rw [readValue.eq_def]; cases b <;> rfl
  | number hn => exact takes_number hn
  | text s =>
    intro rest _
    rw [readValue.eq_def]
    show (orMalformed (takeText (pieces (s.toList.flatMap escapeChar ++ ['"']) ++ rest))).bind _ = _
    rw [takeText_escaped]
    rfl
  | @array room items hitems ih =>
    intro rest _
    have hread := readItems_array
      (List.forall₂_same.2 fun v hv => Item.mk (hitems v hv).opens (ih v hv)) rest
    cases items with
    | nil => rfl
    | cons v items =>
      show (readItems (readValue room)
        (bound (pieces ((Value.array (v :: items)).write.drop 1) ++ rest)) true
        (pieces ((Value.array (v :: items)).write.drop 1) ++ rest)).bind _ = _
      rw [hread]
      rfl
  | @object room members hordered hmembers ih =>
    intro rest _
    cases members with
    | nil => rfl
    | cons m members =>
      obtain ⟨key, v⟩ := m
      show (readMembers (readValue room)
        (bound (pieces ((Value.object ((key, v) :: members)).write.drop 1) ++ rest)) true
        (pieces ((Value.object ((key, v) :: members)).write.drop 1) ++ rest)).bind _ = _
      rw [Schema.write_object_cons, bound, readMembers_member (ih _ List.mem_cons_self) true _ _
        (Schema.delimited_writeMembers members rest), readMembers_write fun m hm =>
          ih m (List.mem_cons_of_mem _ hm)]
      · show Except.ok (Value.ofMembers ((key, v) :: members), rest) = _
        rw [ofMembers_ordered hordered]
      · have hlen := Schema.length_le_writeMembers members
        simp only [pieces, List.length_append, List.length_map, List.length_cons]
        omega

end Muster.Json
