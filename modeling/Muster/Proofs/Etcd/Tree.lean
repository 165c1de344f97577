/-
The tree of an answer. The entries that it lists are those of its tips, the nodes that are no
directories and that only directories lead to; how deep they lie and what a tip has below it does not
count. A tree is read from its text as it was, as deep as there is room for. Main statement:
`readResponse_tree`.
-/
import Muster.Proofs.Etcd.Answer
import Muster.Proofs.Json.Value

namespace Muster.Etcd

open Json (Value Takes)

/-! ## Tips -/

mutual
/-- The nodes that are no directories, as far as nothing but directories leads to them. -/
def Node.tips : Node → List Node
  | ⟨key, value, dir, nodes, modifiedIndex⟩ =>
    if dir then tipsOf nodes else [⟨key, value, dir, nodes, modifiedIndex⟩]

def tipsOf : List Node → List Node
  | [] => []
  | n :: ns => n.tips ++ tipsOf ns
end

mutual
theorem Node.leaves_eq : ∀ n : Node, n.leaves = n.tips.filterMap Node.asEntry
  | ⟨key, value, dir, nodes, modifiedIndex⟩ => by
    rw [Node.leaves, Node.tips]
    cases dir with
    | true => exact leavesOf_eq nodes
    | false =>
      -- what a tip has below it is not in its entry
      have hsame : Node.asEntry ⟨key, value, false, [], modifiedIndex⟩ =
          Node.asEntry ⟨key, value, false, nodes, modifiedIndex⟩ := rfl
      rw [if_neg Bool.false_ne_true, if_neg Bool.false_ne_true, hsame]
      cases hentry : Node.asEntry ⟨key, value, false, nodes, modifiedIndex⟩ with
      | none => rw [List.filterMap_cons_none hentry]; rfl
      | some e => rw [List.filterMap_cons_some hentry]; rfl

/-- The entries below nodes are those of their tips. -/
theorem leavesOf_eq : ∀ ns : List Node, leavesOf ns = (tipsOf ns).filterMap Node.asEntry
  | [] => rfl
  | n :: ns => by
    rw [leavesOf, tipsOf, List.filterMap_append, Node.leaves_eq n, leavesOf_eq ns]
end

/-- An answer lists the entries of the tips of its node, if that is a directory. -/
theorem Answer.entries_eq {a : Answer} {n : Node} (h : a.node = some n) :
    a.entries = if n.dir then n.tips.filterMap Node.asEntry else [] := by
  obtain ⟨key, value, dir, nodes, modifiedIndex⟩ := n
  rw [Answer.entries, h]
  cases dir with
  | true => exact leavesOf_eq nodes
  | false => rfl

theorem Node.tips_of_not_dir {n : Node} (h : n.dir = false) : n.tips = [n] := by
  obtain ⟨key, value, dir, nodes, modifiedIndex⟩ := n
  rw [Node.tips, if_neg (ne_true_of_eq_false h)]

theorem Node.asEntry_eq_some_iff {n : Node} {e : Entry} :
    n.asEntry = some e ↔
      n.key = some e.key ∧ n.value = some e.value ∧ n.modifiedIndex = e.modifiedIndex := by
  obtain ⟨key, value, dir, nodes, modifiedIndex⟩ := n
  obtain ⟨k, v, index⟩ := e
  cases key <;> cases value <;> simp [Node.asEntry]

/-! ## Trees as they are written -/

/-- The member of a text that a node has. -/
def textMember (name : String) (text : Option String) : List (String × Value) :=
  (text.map fun s => (name, Value.text s)).toList

mutual
/-- A node with all that is below it; a key or a value that it has not is left out. -/
def Node.written : Node → Value
  | ⟨key, value, dir, nodes, modifiedIndex⟩ =>
    .object (textMember "key" key ++ (textMember "value" value ++ [("dir", .bool dir),
      ("nodes", .array (writtenOf nodes)), ("modifiedIndex", .number (.whole modifiedIndex))]))

def writtenOf : List Node → List Value
  | [] => []
  | n :: ns => n.written :: writtenOf ns
end

/-- A tree with that many levels at most, whose indices fit their 64 bits. -/
inductive Node.Levels : (levels : Nat) → Node → Prop
  | node {levels : Nat} {n : Node} : n.modifiedIndex < Nat.pow 2 64 →
      (∀ m ∈ n.nodes, Levels levels m) → Levels (levels + 1) n

theorem Node.levels_succ_iff {levels : Nat} {n : Node} :
    n.Levels (levels + 1) ↔ n.modifiedIndex < Nat.pow 2 64 ∧ ∀ m ∈ n.nodes, m.Levels levels :=
  ⟨fun | .node hindex hnodes => ⟨hindex, hnodes⟩, fun h => .node h.1 h.2⟩

/-- The text of a node begins with its brace. -/
theorem write_written (n : Node) : ∃ cs, n.written.write = '\x7b' :: cs := by
  obtain ⟨key, value, dir, nodes, modifiedIndex⟩ := n
  rw [Node.written]
  cases textMember "key" key ++ (textMember "value" value ++ _) <;> exact ⟨_, rfl⟩

/-- Nodes are written as a list of items. -/
theorem items_writtenOf {item : Json.Reader Node} {room : Nat} {ns : List Node}
    (h : ∀ n ∈ ns, Takes item room n.written.write n) :
    List.Forall₂ (Json.Item item room) (writtenOf ns) ns := by
  induction ns with
  | nil => exact .nil
  | cons n ns ih =>
    obtain ⟨cs, hcs⟩ := write_written n
    exact .cons ⟨⟨_, cs, hcs, by decide, by decide⟩, h n List.mem_cons_self⟩
      (ih fun m hm => h m (List.mem_cons_of_mem n hm))

theorem takes_readNodes {item : Json.Reader Node} {room : Nat} {ns : List Node}
    (h : ∀ n ∈ ns, Takes item room n.written.write n) :
    Takes (readNodes item) (room + 1) (Value.array (writtenOf ns)).write ns := by
  intro rest _
  have hread := Json.readItems_array (items_writtenOf h) rest
  cases ns with
  | nil => rfl
  | cons n ns => exact hread

section Members

variable {item : Json.Reader Node} {room : Nat} {members : List (String × Value)} {d : NodeDraft}

theorem fills_key (key : Option String)
    (h : Json.Schema.Fills (nodeSchema item).fields room { key := key.map some } members d) :
    Json.Schema.Fills (nodeSchema item).fields room {} (textMember "key" key ++ members) d := by
  cases key with
  | none => exact h
  | some k => exact .member rfl rfl ((Json.takes_readOptional_text room k).field _ _ _ _) h

theorem fills_value (key value : Option String)
    (h : Json.Schema.Fills (nodeSchema item).fields room
      { key := key.map some, value := value.map some } members d) :
    Json.Schema.Fills (nodeSchema item).fields room { key := key.map some }
      (textMember "value" value ++ members) d := by
  cases value with
  | none => exact h
  | some v => exact .member rfl rfl ((Json.takes_readOptional_text room v).field _ _ _ _) h

end Members

/-- A tree is read as it was: a node takes the room of an object and of the array in it. -/
theorem takes_written {levels depth room : Nat} {n : Node} (h : n.Levels levels)
    (hdepth : levels ≤ depth) (hroom : 2 * levels ≤ room) :
    Takes (readNode depth) room n.written.write n := by
  induction h generalizing depth room with
  | @node levels n hindex _ ih =>
    obtain ⟨depth, rfl⟩ : ∃ d, depth = d + 1 := ⟨depth - 1, by omega⟩
    obtain ⟨room, rfl⟩ : ∃ r, room = r + 2 := ⟨room - 2, by omega⟩
    have hnodes := takes_readNodes fun m hm =>
      ih m hm (Nat.le_of_succ_le_succ hdepth) (by omega : 2 * levels ≤ room)
    obtain ⟨key, value, dir, nodes, modifiedIndex⟩ := n
    rw [Node.written]
    refine Json.Schema.takes_object (s := ⟨key.map some, value.map some, some dir, some nodes,
      some modifiedIndex⟩) ?_ rfl ?_
    · refine fills_key key (fills_value key value ?_)
      refine .member rfl rfl ((Json.takes_readFlag (room + 1) dir).field _ _ _ _) ?_
      refine .member rfl rfl (hnodes.field _ _ _ _) ?_
      exact .member rfl rfl ((Json.takes_readWord64 (room + 1) hindex).field _ _ _ _) (.done _)
    · cases key <;> cases value <;> rfl

/-- Levels of a tree that there is room for in an answer, which is an object itself. -/
def maxLevels : Nat := (Json.maxRoom - 1) / 2

/-- An answer with a tree is read as it was. -/
theorem readResponse_tree {status : Nat} (hstatus : 200 ≤ status ∧ status < 300) (action key : String)
    {n : Node} {levels : Nat} (h : n.Levels levels) (hlevels : levels ≤ maxLevels) :
    readResponse (shown status action n.written) key = .ok (some { action, node := some n }) := by
  have htakes : Takes (readNode Json.maxRoom) (Json.maxRoom - 1) n.written.write n :=
    takes_written h (Nat.le_trans hlevels (by decide))
      (Nat.le_trans (Nat.mul_le_mul_left 2 hlevels) (by decide))
  obtain ⟨cs, hcs⟩ := write_written n
  apply readResponse_shown hstatus
  rw [hcs] at htakes ⊢
  exact htakes.optional (by decide) (by decide)

end Muster.Etcd
