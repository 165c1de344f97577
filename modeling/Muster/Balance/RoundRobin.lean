/-
Rotation over a fixed list: each pick returns the entry at the cursor and moves it on.
-/
namespace Muster

/-- Entries and a cursor, which is below their number unless there are none. -/
structure RoundRobin (α : Type) where
  entries : List α
  cursor : Nat := 0
deriving Repr

namespace RoundRobin

variable {α : Type}

/-- A rotation that starts at an offset, taken modulo the number of entries. -/
def withOffset (entries : List α) (offset : Nat) : RoundRobin α :=
  { entries, cursor := if entries.isEmpty then 0 else offset % entries.length }

/-- The entry at the cursor, and the rotation moved on; nothing without entries. -/
def next (r : RoundRobin α) : Option α × RoundRobin α :=
  match r.entries[r.cursor]? with
  | none => (none, r)
  | some a => (some a, { r with cursor := (r.cursor + 1) % r.entries.length })

/-- The next picks in a row. -/
def picks (r : RoundRobin α) : Nat → List (Option α)
  | 0 => []
  | n + 1 => r.next.1 :: r.next.2.picks n

def size (r : RoundRobin α) : Nat := r.entries.length

/-- The name under which rotation is known. -/
def name : String := "corral_round_robin"

end RoundRobin
end Muster
