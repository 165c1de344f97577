/-
What a reader hands out could have been written. A value that has been read and holds whole numbers
only has them in their 64 bits, its members in the order of their keys, and no more inside one another
than there was room for. What each field of a record keeps to, the whole record keeps to, in either form.
-/
import Muster.Proofs.Json.Value

namespace Muster.Json

/-! ## Numbers -/

/-- A number that is no double. -/
def Number.IsWhole : Number → Prop
  | .whole _ | .negative _ => True
  | .real _ => False

/-- No more digits are taken than fit a word. -/
theorem fitDigits_le (ds : List Nat) {acc : Nat} (h : acc ≤ maxWord) :
    (fitDigits acc ds).1 ≤ maxWord := by
  induction ds generalizing acc with
  | nil => exact h
  | cons d ds ih =>
    rw [fitDigits]
    split
    · exact h
    · rename_i hle
      exact ih (Nat.not_lt.1 hle)

section Numbers

variable {n : Number} {cs rest : Cursor} {negative : Bool} {m dropped : Nat}

/-- A number with an exponent is a double. -/
theorem finishReal_real {implied : Int} (h : finishReal negative m implied cs = some (n, rest)) :
    ¬ n.IsWhole := by
  unfold finishReal at h
  split at h
  all_goals
    simp only [Option.bind_eq_bind, Option.bind_eq_some_iff, Option.some.injEq, Prod.mk.injEq] at h
  · obtain ⟨-, -, x, -, rfl, -⟩ := h
    exact id
  · obtain ⟨-, -, x, -, rfl, -⟩ := h
    exact id
  · obtain ⟨x, -, rfl, -⟩ := h
    exact id

theorem finishNumber_fits (hm : m ≤ maxWord)
    (h : finishNumber negative m dropped cs = some (n, rest)) (hn : n.IsWhole) : n.Fits := by
  have hreal {m : Nat} {implied : Int} {cs : Cursor}
      (h : finishReal negative m implied cs = some (n, rest)) : n.Fits :=
    absurd hn (finishReal_real h)
  unfold finishNumber at h
  split at h
  · split at h
    · cases h
    · exact hreal h
  · exact hreal h
  · exact hreal h
  · split at h
    · exact hreal h
    · split at h
      · cases h
        exact Nat.lt_of_le_of_lt hm (by decide)
      · split at h
        · exact hreal h
        · cases h
          constructor <;> omega

theorem takeNumber_fits (h : takeNumber cs = some (n, rest)) (hn : n.IsWhole) : n.Fits := by
  have hunsigned {negative : Bool} {cs : Cursor} (h : takeUnsigned negative cs = some (n, rest)) :
      n.Fits := by
    unfold takeUnsigned at h
    split at h
    · cases h
    · cases h
    · exact finishNumber_fits (fitDigits_le _ (Nat.zero_le _)) h hn
  unfold takeNumber at h
  split at h
  all_goals exact hunsigned h

end Numbers

/-! ## Containers -/

theorem bind_ok {ε α β : Type} {x : Except ε α} {f : α → Except ε β} {b : β}
    (h : x.bind f = .ok b) : ∃ a, x = .ok a ∧ f a = .ok b := by
  cases x with
  | error e => cases h
  | ok a => exact ⟨a, rfl, h⟩

theorem orMalformed_ok {α : Type} {x : Option α} {a : α} (h : orMalformed x = .ok a) : x = some a := by
  cases x with
  | none => cases h
  | some b => cases h; rfl

section Containers

variable {α : Type} {item : Cursor → Except Fault (α × Cursor)}

/-- Each item of an array has been read somewhere. -/
theorem mem_readItems {fuel cs rest : Cursor} {first : Bool} {as : List α}
    (h : readItems item fuel first cs = .ok (as, rest)) :
    ∀ a ∈ as, ∃ cs rest, item cs = .ok (a, rest) := by
  induction fuel generalizing first cs as with
  | nil => cases h
  | cons p fuel ih =>
    rw [readItems] at h
    split at h
    · cases h
      exact fun a ha => absurd ha List.not_mem_nil
    · -- with a comma before it or without, an item comes next
      obtain ⟨cs', h⟩ : ∃ cs', (item cs').bind (fun r => (readItems item fuel false r.2).bind
          fun q => .ok (r.1 :: q.1, q.2)) = .ok (as, rest) := by
        cases first with
        | true => exact ⟨_, h⟩
        | false =>
          obtain ⟨cs', -, h⟩ := bind_ok h
          exact ⟨cs', h⟩
      obtain ⟨⟨b, cs''⟩, hitem, h⟩ := bind_ok h
      obtain ⟨⟨bs, cs'''⟩, hitems, h⟩ := bind_ok h
      cases h
      exact List.forall_mem_cons.2 ⟨⟨_, _, hitem⟩, ih hitems⟩

/-- Each member of an object has been read somewhere. -/
theorem mem_readMembers {fuel cs rest : Cursor} {first : Bool} {ms : List (String × α)}
    (h : readMembers item fuel first cs = .ok (ms, rest)) :
    ∀ m ∈ ms, ∃ cs rest, item cs = .ok (m.2, rest) := by
  induction fuel generalizing first cs ms with
  | nil => cases h
  | cons p fuel ih =>
    obtain ⟨⟨key, cs'⟩, -, h⟩ := bind_ok (readMembers.eq_def .. ▸ h)
    cases key with
    | none =>
      cases h
      exact fun m hm => absurd hm List.not_mem_nil
    | some key =>
      obtain ⟨cs'', -, h⟩ := bind_ok h
      obtain ⟨⟨b, cs'''⟩, hitem, h⟩ := bind_ok h
      obtain ⟨⟨bs, cs''''⟩, hitems, h⟩ := bind_ok h
      cases h
      exact List.forall_mem_cons.2 ⟨⟨_, _, hitem⟩, ih hitems⟩

end Containers

/-! ## Objects -/

section Members

variable {key : String} {v : Value} {members : List (String × Value)}

theorem mem_insertMember {m : String × Value} (h : m ∈ Value.insertMember key v members) :
    m = (key, v) ∨ m ∈ members := by
  induction members with
  | nil => exact .inl (List.mem_singleton.1 h)
  | cons n members ih =>
    rw [Value.insertMember] at h
    split at h
    · exact List.mem_cons.1 h
    · split at h
      · exact (List.mem_cons.1 h).imp_right (List.mem_cons_of_mem n)
      · rcases List.mem_cons.1 h with rfl | h
        · exact .inr List.mem_cons_self
        · exact (ih h).imp_right (List.mem_cons_of_mem n)

/-- A member that is put in keeps the order of the keys. -/
theorem insertMember_ordered (h : members.Pairwise fun m n => m.1 < n.1) :
    (Value.insertMember key v members).Pairwise fun m n => m.1 < n.1 := by
  induction members with
  | nil => exact List.pairwise_singleton _ _
  | cons n members ih =>
    obtain ⟨hn, hrest⟩ := List.pairwise_cons.1 h
    rw [Value.insertMember]
    split
    · rename_i hlt
      refine List.pairwise_cons.2 ⟨List.forall_mem_cons.2 ⟨hlt, fun m hm => ?_⟩, h⟩
      exact lt_trans hlt (hn m hm)
    · rename_i hlt
      split
      · rename_i heq
        exact List.pairwise_cons.2 ⟨heq ▸ hn, hrest⟩
      · rename_i hne
        refine List.pairwise_cons.2 ⟨fun m hm => ?_, ih hrest⟩
        rcases mem_insertMember hm with rfl | hm
        · exact lt_of_le_of_ne (not_lt.1 hlt) (Ne.symm hne)
        · exact hn m hm

theorem foldl_insertMember_ordered (members : List (String × Value)) {acc : List (String × Value)}
    (h : acc.Pairwise fun m n => m.1 < n.1) :
    (members.foldl (fun acc m => Value.insertMember m.1 m.2 acc) acc).Pairwise
      fun m n => m.1 < n.1 := by
  induction members generalizing acc with
  | nil => exact h
  | cons m members ih => exact ih (insertMember_ordered h)

theorem mem_foldl_insertMember {m : String × Value} {acc : List (String × Value)}
    (h : m ∈ members.foldl (fun acc m => Value.insertMember m.1 m.2 acc) acc) :
    m ∈ acc ∨ m ∈ members := by
  induction members generalizing acc with
  | nil => exact .inl h
  | cons n members ih =>
    rcases ih h with hm | hm
    · rcases mem_insertMember hm with rfl | hm
      · exact .inr List.mem_cons_self
      · exact .inl hm
    · exact .inr (List.mem_cons_of_mem n hm)

end Members

/-! ## Values -/

/-- All numbers of a value are whole. -/
inductive Value.IsWhole : Value → Prop
  | null : IsWhole .null
  | bool (b : Bool) : IsWhole (.bool b)
  | number {n : Number} : n.IsWhole → IsWhole (.number n)
  | text (s : String) : IsWhole (.text s)
  | array {items : List Value} : (∀ v ∈ items, IsWhole v) → IsWhole (.array items)
  | object {members : List (String × Value)} : (∀ m ∈ members, IsWhole m.2) →
      IsWhole (.object members)

/-- What there can be in the place of a value, by its kind. -/
inductive Taken : (room : Nat) → Value → Prop
  | null {room : Nat} : Taken room .null
  | bool {room : Nat} (b : Bool) : Taken room (.bool b)
  | number {room : Nat} {cs rest : Cursor} {n : Number} : takeNumber cs = some (n, rest) →
      Taken room (.number n)
  | text {room : Nat} (s : String) : Taken room (.text s)
  | array {room : Nat} {fuel cs rest : Cursor} {items : List Value} :
      readItems (readValue room) fuel true cs = .ok (items, rest) → Taken (room + 1) (.array items)
  | object {room : Nat} {fuel cs rest : Cursor} {members : List (String × Value)} :
      readMembers (readValue room) fuel true cs = .ok (members, rest) →
      Taken (room + 1) (Value.ofMembers members)

theorem taken_of_readValue {room : Nat} {cs rest : Cursor} {v : Value}
    (h : readValue room cs = .ok (v, rest)) : Taken room v := by
  rw [readValue.eq_def] at h
  split at h
  · obtain ⟨_, -, h⟩ := bind_ok h
    cases h
    exact .null
  · obtain ⟨_, -, h⟩ := bind_ok h
    cases h
    exact .bool true
  · obtain ⟨_, -, h⟩ := bind_ok h
    cases h
    exact .bool false
  · obtain ⟨_, -, h⟩ := bind_ok h
    cases h
    exact .text _
  · cases room with
    | zero => cases h
    | succ room =>
      obtain ⟨_, hitems, h⟩ := bind_ok h
      cases h
      exact .array hitems
  · cases room with
    | zero => cases h
    | succ room =>
      obtain ⟨_, hmembers, h⟩ := bind_ok h
      cases h
      exact .object hmembers
  · obtain ⟨_, hnumber, h⟩ := bind_ok h
    cases h
    exact .number (orMalformed_ok hnumber)

/-- What has been read, with whole numbers only, can be read again once it has been written. -/
theorem readable_of_readValue {room : Nat} {cs rest : Cursor} {v : Value}
    (h : readValue room cs = .ok (v, rest)) (hv : v.IsWhole) : v.Readable room := by
  induction room using Nat.strongRecOn generalizing cs rest v with
  | ind room ih =>
    cases taken_of_readValue h with
    | null => exact .null
    | bool b => exact .bool b
    | number hn =>
      cases hv with
      | number hwhole => exact .number (takeNumber_fits hn hwhole)
    | text s => exact .text s
    | @array room _ _ _ items hitems =>
      cases hv with
      | array hwhole =>
        refine .array fun v hv => ?_
        obtain ⟨cs, rest, hread⟩ := mem_readItems hitems v hv
        exact ih room (Nat.lt_succ_self room) hread (hwhole v hv)
    | @object room _ _ _ members hmembers =>
      cases hv with
      | object hwhole =>
        refine .object (foldl_insertMember_ordered members .nil) fun m hm => ?_
        have hmem : m ∈ members := (mem_foldl_insertMember hm).resolve_left nofun
        obtain ⟨cs, rest, hread⟩ := mem_readMembers hmembers m hmem
        exact ih room (Nat.lt_succ_self room) hread (hwhole m hm)

theorem le_of_readWord {wanted : String} {limit room n : Nat} {cs rest : Cursor}
    (h : readWord wanted limit room cs = .ok (n, rest)) : n ≤ limit := by
  unfold readWord at h
  dsimp only at h
  split at h
  · obtain ⟨⟨m, cs'⟩, -, h⟩ := bind_ok h
    dsimp only at h
    split at h
    · split at h
      · rename_i hle
        cases h
        exact hle
      · cases h
    · cases h
    · cases h
  · cases h

theorem of_readOptional_some {α : Type} {reader : Reader α} {room : Nat} {cs rest : Cursor} {a : α}
    (h : readOptional reader room cs = .ok (some a, rest)) : ∃ cs, reader room cs = .ok (a, rest) := by
  unfold readOptional at h
  split at h
  · obtain ⟨_, -, h⟩ := bind_ok h
    cases h
  · obtain ⟨_, hread, h⟩ := bind_ok h
    cases h
    exact ⟨_, hread⟩

/-! ## Records -/

/-- What is read into a field has been read by the reader of the field. -/
theorem Field.read_of {σ α : Type} {name : String} {presence : Presence} {reader : Reader α}
    {get : σ → Option α} {set : α → σ → σ} {room : Nat} {cs rest : Cursor} {update : σ → σ}
    (h : (Field.of name presence reader get set).read room cs = .ok (update, rest)) :
    ∃ a, reader room cs = .ok (a, rest) ∧ update = set a := by
  obtain ⟨⟨a, cs'⟩, hread, h⟩ := bind_ok h
  cases h
  exact ⟨a, hread, rfl⟩

namespace Schema

variable {σ α : Type} {P : σ → Prop} {room : Nat} {fields : List (Field σ)}

/-- A property of what has been read that a field keeps, whatever its reader finds. -/
def Keeps (P : σ → Prop) (room : Nat) (field : Field σ) : Prop :=
  ∀ cs set rest, field.read room cs = .ok (set, rest) → ∀ s, P s → P (set s)

theorem readObject_keeps (hfields : ∀ f ∈ fields, Keeps P room f) {fuel cs rest : Cursor}
    {first : Bool} {s t : σ} (hs : P s)
    (h : readObject fields room fuel first s cs = .ok (t, rest)) : P t := by
  induction fuel generalizing first s cs with
  | nil => cases h
  | cons p fuel ih =>
    obtain ⟨⟨key, cs'⟩, -, h⟩ := bind_ok (readObject.eq_def .. ▸ h)
    cases key with
    | none =>
      cases h
      exact hs
    | some key =>
      dsimp only at h
      split at h
      · rename_i field hfind
        split at h
        · cases h
        · obtain ⟨cs'', -, h⟩ := bind_ok h
          obtain ⟨⟨set, left⟩, hread, h⟩ := bind_ok h
          exact ih (hfields field (List.mem_of_find?_eq_some hfind) _ _ _ hread s hs) h
      · -- a member that is not known leaves what has been read
        obtain ⟨cs'', -, h⟩ := bind_ok h
        obtain ⟨left, -, h⟩ := bind_ok h
        exact ih hs h

theorem readArray_keeps (hfields : ∀ f ∈ fields, Keeps P room f) {wanted : String} {index : Nat}
    {cs rest : Cursor} {s t : σ} (hs : P s)
    (h : readArray wanted room index fields s cs = .ok (t, rest)) : P t := by
  induction fields generalizing index s cs with
  | nil =>
    obtain ⟨_, -, h⟩ := bind_ok h
    cases h
    exact hs
  | cons f fs ih =>
    obtain ⟨hf, hfs⟩ := List.forall_mem_cons.1 hfields
    rw [readArray] at h
    split at h
    · split at h
      · exact ih hfs hs h
      · cases h
    · obtain ⟨cs', h⟩ : ∃ cs', (f.read room cs').bind
          (fun r => readArray wanted room (index + 1) fs (r.1 s) r.2) = .ok (t, rest) := by
        split at h
        · exact ⟨_, h⟩
        · obtain ⟨cs', -, h⟩ := bind_ok h
          exact ⟨cs', h⟩
      obtain ⟨⟨set, cs''⟩, hread, h⟩ := bind_ok h
      exact ih hfs (hf _ _ _ hread s hs) h

/-- A record is made of what its fields have been given, whichever form it has been read in. -/
theorem read_keeps {schema : Schema σ α} (hstart : P schema.start)
    (hfields : ∀ f ∈ schema.fields, Keeps P room f) {cs rest : Cursor} {a : α}
    (h : schema.read (room + 1) cs = .ok (a, rest)) : ∃ s, P s ∧ schema.finish s = some a := by
  unfold Schema.read at h
  split at h
  · obtain ⟨⟨s, cs'⟩, hread, h⟩ := bind_ok h
    obtain ⟨_, hfinish, h⟩ := bind_ok h
    cases h
    exact ⟨s, readArray_keeps hfields hstart hread, orMalformed_ok hfinish⟩
  · obtain ⟨⟨s, cs'⟩, hread, h⟩ := bind_ok h
    obtain ⟨_, -, h⟩ := bind_ok h
    obtain ⟨_, hfinish, h⟩ := bind_ok h
    cases h
    exact ⟨s, readObject_keeps hfields hstart hread, orMalformed_ok hfinish⟩
  · cases h

end Schema
end Muster.Json
