/-!
# Rings

A ring keeps the last entries that were put into it, as many as it has slots. Once every slot is
taken, the next entry goes over the oldest one.
-/
namespace DeclCheck.Trace

/-- Slots that are filled one after the other and then from the first one again. -/
structure Ring (α : Type) where
  slots : Array α
  /-- The slot of the next entry. -/
  head : Nat
  /-- Was every slot taken? -/
  full : Bool
  head_lt : head < slots.size
  deriving Repr

namespace Ring

variable {α : Type}

/-- How many entries a ring keeps if no number is given. -/
def defaultCapacity : Nat := 4096

/-- How many entries a ring keeps if a number is asked for that may not be positive. -/
def capacityFor (asked : Int) : Nat := if asked ≤ 0 then defaultCapacity else asked.toNat

theorem capacityFor_pos (asked : Int) : 0 < capacityFor asked := by
  unfold capacityFor defaultCapacity
  split <;> omega

/-- An empty ring; without a positive number of slots it gets the default. -/
def empty [Inhabited α] (asked : Int) : Ring α where
  slots := Array.replicate (capacityFor asked) default
  head := 0
  full := false
  head_lt := by rw [Array.size_replicate]; exact capacityFor_pos asked

/-- Puts an entry in, over the oldest one if the ring is full. -/
def push (r : Ring α) (a : α) : Ring α where
  slots := r.slots.set r.head a r.head_lt
  head := (r.head + 1) % r.slots.size
  full := r.full || (r.head + 1) % r.slots.size == 0
  head_lt := by rw [Array.size_set]; exact Nat.mod_lt _ (Nat.zero_lt_of_lt r.head_lt)

def toList (r : Ring α) : List α :=
  if r.full then r.slots.toList.drop r.head ++ r.slots.toList.take r.head
  else r.slots.toList.take r.head

end Ring

end DeclCheck.Trace
