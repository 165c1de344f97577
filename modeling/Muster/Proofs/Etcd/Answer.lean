/-
Answers and refusals as a keeper of keys writes them are read as they were meant: a node with its
key and value, or a refusal with its number.
-/
import Muster.Etcd.Keyspace
import Muster.Proofs.Json.Record
import Muster.Proofs.Text.Blank
import Muster.Proofs.Text.Utf8

namespace Muster.Etcd

open Json (Value Takes takes_readText takes_readOptional_text takes_readWord32 takes_readFlag)

/-! ## Records -/

theorem takes_leaf (room depth : Nat) (key value : String) :
    Takes (readNode (depth + 1)) (room + 1) (leaf key value).write
      { key := some key, value := some value } := by
  refine Json.Schema.takes_object (s := { key := some (some key), value := some (some value) }) ?_ rfl rfl
  refine .member rfl rfl ((takes_readOptional_text room key).field _ _ _ _) ?_
  exact .member rfl rfl ((takes_readOptional_text room value).field _ _ _ _) (.done _)

theorem takes_directory (room depth : Nat) (key : String) :
    Takes (readNode (depth + 1)) (room + 1) (directory key).write { key := some key, dir := true } := by
  refine Json.Schema.takes_object (s := { key := some (some key), dir := some true }) ?_ rfl rfl
  refine .member rfl rfl ((takes_readOptional_text room key).field _ _ _ _) ?_
  exact .member rfl rfl ((takes_readFlag room true).field _ _ _ _) (.done _)

theorem takes_shown (room : Nat) (action : String) {node : Value} {n : Node}
    (h : Takes (Json.readOptional (readNode Json.maxRoom)) room node.write (some n)) :
    Takes answerSchema.read (room + 1)
      (Value.object [("action", .text action), ("node", node)]).write { action, node := some n } := by
  refine Json.Schema.takes_object (s := { action := some action, node := some (some n) }) ?_ rfl rfl
  refine .member rfl rfl ((takes_readText room action).field _ _ _ _) ?_
  exact .member rfl rfl (h.field _ _ _ _) (.done _)

theorem takes_refusal (room : Nat) {code : Nat} (hcode : code < Nat.pow 2 32)
    (message cause : String) :
    Takes refusalSchema.read (room + 1) (Value.object [("errorCode", .number (.whole code)),
      ("message", .text message), ("cause", .text cause)]).write
      { code, message, cause := some cause } := by
  refine Json.Schema.takes_object
    (s := { code := some code, message := some message, cause := some (some cause) }) ?_ rfl rfl
  refine .member rfl rfl ((takes_readWord32 room hcode).field _ _ _ _) ?_
  refine .member rfl rfl ((takes_readText room message).field _ _ _ _) ?_
  exact .member rfl rfl ((takes_readOptional_text room cause).field _ _ _ _) (.done _)

/-! ## Responses -/

theorem readBody_write {σ α : Type} {schema : Json.Schema σ α} {v : Value} {x : α}
    (h : Takes schema.read Json.maxRoom v.write x) :
    readBody schema (String.ofList v.write) = .ok x := by
  unfold readBody
  rw [String.toList_ofList, h.readWhole]

/-- A node that is shown is read. -/
theorem readResponse_shown {status : Nat} (hstatus : 200 ≤ status ∧ status < 300)
    (action key : String) {node : Value} {n : Node}
    (h : Takes (Json.readOptional (readNode Json.maxRoom)) (Json.maxRoom - 1) node.write (some n)) :
    readResponse (shown status action node) key = .ok (some { action, node := some n }) := by
  have hbody := readBody_write (takes_shown _ action h : Takes _ Json.maxRoom _ _)
  have hsuccess : (shown status action node).isSuccess = true := by
    simp [Http.Response.isSuccess, shown, hstatus]
  unfold readResponse
  rw [if_neg (by simp [shown])]
  dsimp only
  rw [if_pos hsuccess, shown, Utf8.decodeLossy_encode]
  -- the text begins with a brace
  have htext : trimBlanks (String.ofList
      (Value.object [("action", .text action), ("node", node)]).write) ≠ "" := by
    apply trimBlanks_ne_empty (c := '\x7b') _ (by decide)
    rw [String.toList_ofList]
    exact List.mem_cons_self
  rw [if_neg htext, hbody]

/-- A refusal is read as what it means for the key. -/
theorem readResponse_refusal {status code : Nat} (hstatus : 300 ≤ status)
    (hcode : code < Nat.pow 2 32) (message cause key : String) :
    readResponse (refusal status code message cause) key =
      .error (Refusal.fault { code, message, cause := some cause } key) := by
  have hbody := readBody_write (takes_refusal _ hcode message cause : Takes _ Json.maxRoom _ _)
  have hsuccess : ¬ (refusal status code message cause).isSuccess = true := by
    show ¬ (decide (200 ≤ status) && decide (status < 300)) = true
    simp only [Bool.and_eq_true, decide_eq_true_eq]
    omega
  unfold readResponse
  rw [if_neg (by simp [refusal])]
  dsimp only
  rw [if_neg hsuccess, refusal, Utf8.decodeLossy_encode]
  rw [hbody]

end Muster.Etcd
